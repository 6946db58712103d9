/-
# OteStack.Tunnel.SendOrder — what becomes of the messages of a controller tunnel.

`sendFromChan` of `pkg/tunnel/controller_tunnel.go` takes the messages from `sendChan` one by one.  A
message is in hand from then on until it has been written, or cannot be marshalled, or is thrown away by
`recoverAndReSend`; only then the next one is taken.

`finished` is the list of these ends along a run, read off the steps: a message is `lost` whenever it is no
longer in hand and was not written, with the health flag and the length of the channel at that moment.  The
messages that entered the channel are, in order, those finished, the one in hand and those in the channel
(`offered_eq`), from which `sent_in_order_at_most_once` follows.
-/
import OteStack.Tunnel.ControllerTunnel

namespace OteStack

open OteStack.Lib (runSteps runSteps_cons)

namespace ControllerTunnel

variable {M : Type} {s s' : ControllerTunnel M} {a : TunnelAction M}

/-! ## Messages and their ends -/

/-- The message that the sender has taken and not yet finished with. -/
def inHand : SenderPhase M → Option M
  | .unstarted | .receiving => none
  | .sending data | .locking data | .checking data | .waiting data | .woken data => some data
  | .writing data _ | .failed data _ | .resending data _ => some data

/-- How the sender has finished with a message.  A lost one comes with the health flag and the number of
messages in the channel when it was lost. -/
inductive Ending where
  | written
  | unmarshalled
  | lost (connectionHealth : Bool) (queued : ℕ)
  deriving DecidableEq, Repr

/-- The message that a step is the end of. -/
def finishes (s s' : ControllerTunnel M) : TunnelAction M → List (M × Ending)
  | .take false => s.sendChan.head?.toList.map fun msg => (msg, .unmarshalled)
  | .write true => (inHand s.sender).toList.map fun msg => (msg, .written)
  | _ =>
      match inHand s.sender, inHand s'.sender with
      | some msg, none => [(msg, .lost s.connectionHealth s.sendChan.length)]
      | _, _ => []

/-- The messages that the sender has finished with along a run, in order. -/
def finished (s : ControllerTunnel M) : List (TunnelAction M) → List (M × Ending)
  | [] => []
  | a :: as =>
      match s.step a with
      | none => []
      | some s' => finishes s s' a ++ finished s' as

/-- The message that an action puts into the channel. -/
def entering : TunnelAction M → Option M
  | .offer msg => some msg
  | _ => none

/-- The messages that entered the channel along a run. -/
def offered (as : List (TunnelAction M)) : List M := as.filterMap entering

/-- The messages that were written. -/
def written (ends : List (M × Ending)) : List M := (ends.filter fun e => e.2 = .written).map Prod.fst

/-! ## One step -/

/-- What a step does to the messages: nothing, or one of them enters, is taken, cannot be marshalled, is
written or is thrown away. -/
inductive Effect (s s' : ControllerTunnel M) : TunnelAction M → Prop where
  | kept {a : TunnelAction M} (hhand : inHand s'.sender = inHand s.sender) (hchan : s'.sendChan = s.sendChan)
      (henter : entering a = none) (htake : a ≠ .take false) (hwrite : a ≠ .write true) : Effect s s' a
  | enters {msg : M} (hhand : inHand s'.sender = inHand s.sender)
      (hchan : s'.sendChan = s.sendChan ++ [msg]) : Effect s s' (.offer msg)
  | taken {msg : M} (hhand : inHand s.sender = none) (hhand' : inHand s'.sender = some msg)
      (hchan : s.sendChan = msg :: s'.sendChan) : Effect s s' (.take true)
  | unmarshalled {msg : M} (hhand : inHand s.sender = none) (hhand' : inHand s'.sender = none)
      (hchan : s.sendChan = msg :: s'.sendChan) : Effect s s' (.take false)
  | written {msg : M} (hhand : inHand s.sender = some msg) (hhand' : inHand s'.sender = none)
      (hchan : s'.sendChan = s.sendChan) : Effect s s' (.write true)
  | thrown {msg : M} (hhand : inHand s.sender = some msg) (hhand' : inHand s'.sender = none)
      (hchan : s'.sendChan = s.sendChan) (hhealth : s.connectionHealth = false)
      (hfull : s.sendChan.length = controllerSendChanBufferSize) : Effect s s' .check

/-- The sender is not there before the tunnel has been started. -/
def IdleStart (s : ControllerTunnel M) : Prop := s.reader = .starting → s.sender = .unstarted

theorem idleStart_of_reader (h : s.reader ≠ .starting) : s.IdleStart := fun hr => absurd hr h

/-- The sender moves only when it is there. -/
theorem IdleStart.of_sender (hidle : s.IdleStart) (hsender : s.sender ≠ .unstarted)
    (hreader : s'.reader = s.reader) : s'.IdleStart := by
  intro hr
  rw [hreader] at hr
  exact absurd (hidle hr) hsender

theorem inHand_wake (p : SenderPhase M) : inHand (wake p) = inHand p := by
  cases p <;> rfl

/-- A step that leaves channel and sender alone. -/
theorem Effect.frame (hsender : s'.sender = s.sender) (hchan : s'.sendChan = s.sendChan)
    (henter : entering a = none) (htake : a ≠ .take false) (hwrite : a ≠ .write true) : Effect s s' a :=
  .kept (congrArg inHand hsender) hchan henter htake hwrite

theorem effect_of_step (hidle : s.IdleStart) (hstep : s.step a = some s') : Effect s s' a := by
  cases transition_of_step hstep with
  | offer _ => exact .enters rfl rfl
  | started hr => exact .kept (by rw [hidle hr]; rfl) rfl rfl (by simp) (by simp)
  | dialFailed _ =>
      refine .frame ?_ ?_ rfl (by simp) (by simp)
      · unfold ControllerTunnel.dialFailed
        split <;> rfl
      · unfold ControllerTunnel.dialFailed
        split <;> rfl
  | signal _ => exact .kept (inHand_wake s.sender) rfl rfl (by simp) (by simp)
  | @take marshals msg rest hs hchan =>
      have hhand : inHand s.sender = none := by rw [hs, inHand]
      cases marshals with
      | true => exact .taken hhand rfl hchan
      | false => exact .unmarshalled hhand rfl hchan
  | @written data conn hs _ =>
      have hhand : inHand s.sender = some data := by rcases hs with hs | hs <;> rw [hs, inHand]
      exact .written hhand rfl rfl
  -- the sender goes on with the message it has
  | send hs | writeFailed hs | resendFailed hs | markUnhealthy hs | resend hs _ | wait hs _ _ =>
      refine .kept ?_ rfl rfl (by simp) (by simp)
      rw [hs]
      rfl
  | lockSender hs _ =>
      refine .kept ?_ rfl rfl (by simp) (by simp)
      rcases hs with hs | hs <;> rw [hs] <;> rfl
  | throw hs hh hfull => exact .thrown (by rw [hs, inHand]) rfl rfl hh hfull
  -- the network and the reader
  | _ => exact .frame rfl rfl rfl (by simp) (by simp)

theorem IdleStart.step (hidle : s.IdleStart) (hstep : s.step a = some s') : s'.IdleStart := by
  cases transition_of_step hstep with
  | offer _ | breaks | redirected _ | receive _ => exact hidle
  | signal hr =>
      refine idleStart_of_reader ?_
      dsimp only
      split <;> simp
  | take hs _ | send hs | writeFailed hs | resendFailed hs | markUnhealthy hs
  | resend hs _ | throw hs _ _ | wait hs _ _ => exact hidle.of_sender (by simp [hs]) rfl
  | written hs _ | lockSender hs _ =>
      refine hidle.of_sender ?_ rfl
      rcases hs with hs | hs <;> simp [hs]
  | _ => exact idleStart_of_reader (by simp)

theorem finishes_of_kept (hhand : inHand s'.sender = inHand s.sender) (htake : a ≠ .take false)
    (hwrite : a ≠ .write true) : finishes s s' a = [] := by
  unfold finishes
  split
  · exact absurd rfl htake
  · exact absurd rfl hwrite
  · rw [hhand]
    cases inHand s.sender <;> rfl

/-- The messages known before a step, and the one entering, are those it finishes and those known after it. -/
theorem Effect.messages (h : Effect s s' a) :
    (inHand s.sender).toList ++ s.sendChan ++ (entering a).toList =
      (finishes s s' a).map Prod.fst ++ (inHand s'.sender).toList ++ s'.sendChan := by
  cases h with
  | kept hhand hchan henter htake hwrite =>
      rw [finishes_of_kept hhand htake hwrite, hhand, hchan, henter]
      simp
  | enters hhand hchan =>
      rw [finishes_of_kept hhand (by simp) (by simp), hhand, hchan]
      simp [entering]
  | taken hhand hhand' hchan =>
      rw [finishes, hhand, hhand', hchan]
      · simp [entering]
      · simp
      · simp
  | unmarshalled hhand hhand' hchan =>
      rw [finishes, hhand, hhand', hchan]
      simp [entering]
  | written hhand hhand' hchan =>
      rw [finishes, hhand, hhand', hchan]
      simp [entering]
  | thrown hhand hhand' hchan _ _ =>
      rw [finishes, hhand, hhand', hchan]
      · simp [entering]
      · simp
      · simp

/-- A message that is finished was written, or could not be marshalled, or was lost while the connection was
flagged unhealthy and the channel was full. -/
def Ending.Accounted (e : Ending) : Prop :=
  e = .written ∨ e = .unmarshalled ∨ e = .lost false controllerSendChanBufferSize

theorem Effect.accounted (h : Effect s s' a) : ∀ e ∈ finishes s s' a, e.2.Accounted := by
  cases h with
  | kept hhand _ _ htake hwrite =>
      rw [finishes_of_kept hhand htake hwrite]
      simp
  | enters hhand _ =>
      rw [finishes_of_kept hhand (by simp) (by simp)]
      simp
  | taken hhand _ _ =>
      rw [finishes, hhand]
      · simp
      · simp
      · simp
  | unmarshalled _ _ hchan =>
      rw [finishes, hchan]
      simp [Ending.Accounted]
  | written hhand _ _ =>
      rw [finishes, hhand]
      simp [Ending.Accounted]
  | thrown hhand hhand' _ hhealth hfull =>
      rw [finishes, hhand, hhand', hhealth, hfull]
      · simp [Ending.Accounted]
      · simp
      · simp

/-! ## A run -/

theorem finished_cons {as : List (TunnelAction M)} (hstep : s.step a = some s') :
    finished s (a :: as) = finishes s s' a ++ finished s' as := by
  rw [finished, hstep]

/-- The messages known at the start of a run and those that enter are, in order, those finished, the one in
hand and those in the channel. -/
theorem offered_eq : ∀ {as : List (TunnelAction M)} {s t : ControllerTunnel M}, s.IdleStart →
    runSteps step s as = some t →
      (inHand s.sender).toList ++ s.sendChan ++ offered as =
        (finished s as).map Prod.fst ++ (inHand t.sender).toList ++ t.sendChan
  | [], s, t, _, hrun => by
      obtain rfl : s = t := Option.some.inj hrun
      simp [offered, finished]
  | a :: as, s, t, hidle, hrun => by
      obtain ⟨s', hstep, hrest⟩ := runSteps_cons.mp hrun
      have hmessages := (effect_of_step hidle hstep).messages
      have hoffered : offered (a :: as) = (entering a).toList ++ offered as := by
        unfold offered
        rw [List.filterMap_cons]
        cases entering a <;> rfl
      calc (inHand s.sender).toList ++ s.sendChan ++ offered (a :: as)
          = (inHand s.sender).toList ++ s.sendChan ++ (entering a).toList ++ offered as := by
            rw [hoffered, List.append_assoc _ (entering a).toList]
        _ = (finishes s s' a).map Prod.fst ++
              ((inHand s'.sender).toList ++ s'.sendChan ++ offered as) := by
            rw [hmessages]
            simp only [List.append_assoc]
        _ = (finishes s s' a).map Prod.fst ++
              ((finished s' as).map Prod.fst ++ (inHand t.sender).toList ++ t.sendChan) := by
            rw [offered_eq (hidle.step hstep) hrest]
        _ = (finished s (a :: as)).map Prod.fst ++ (inHand t.sender).toList ++ t.sendChan := by
            rw [finished_cons hstep, List.map_append]
            simp only [List.append_assoc]

theorem accounted_of_finished : ∀ {as : List (TunnelAction M)} {s : ControllerTunnel M}, s.IdleStart →
    ∀ e ∈ finished s as, e.2.Accounted
  | [], _, _, e, he => absurd he List.not_mem_nil
  | a :: as, s, hidle, e, he => by
      cases hstep : s.step a with
      | none =>
          rw [finished, hstep] at he
          cases he
      | some s' =>
          rw [finished_cons hstep] at he
          rcases List.mem_append.mp he with he | he
          · exact (effect_of_step hidle hstep).accounted e he
          · exact accounted_of_finished (hidle.step hstep) e he

/-- For every run of a controller tunnel: the messages written are some of those that entered the channel, in
the order in which they entered and each at most once.  Of those that entered, the ones taken are all
finished except the one in hand, and a finished message was written, or could not be marshalled, or was
thrown away while the connection was flagged unhealthy and the channel was full. -/
theorem sent_in_order_at_most_once {addr : String} {as : List (TunnelAction M)} {s : ControllerTunnel M}
    (hrun : runSteps step (new addr) as = some s) :
    (written (finished (new addr) as)).Sublist (offered as) ∧
      offered as = (finished (new addr) as).map Prod.fst ++ (inHand s.sender).toList ++ s.sendChan ∧
      ∀ e ∈ finished (new addr) as, e.2.Accounted := by
  have hidle : (new addr : ControllerTunnel M).IdleStart := fun _ => rfl
  have hoffered : offered as =
      (finished (new addr) as).map Prod.fst ++ (inHand s.sender).toList ++ s.sendChan := by
    rw [← offered_eq hidle hrun]
    rfl
  refine ⟨?_, hoffered, accounted_of_finished hidle⟩
  have hfinished : (written (finished (new addr) as)).Sublist ((finished (new addr) as).map Prod.fst) :=
    List.filter_sublist.map Prod.fst
  rw [hoffered, List.append_assoc]
  exact hfinished.trans (List.sublist_append_left _ _)

/-- A message that cannot be marshalled, one that is written at the second attempt, and one still in the
channel. -/
theorem sent_in_order_resend :
    let as : List (TunnelAction ℕ) := [.dial .connected, .offer 1, .offer 2, .offer 3, .take false,
      .take true, .send, .write false, .markUnhealthy, .lockSender, .check, .readError, .close, .lockReader,
      .dial .connected, .recovered, .signal, .lockSender, .check, .write true]
    finished (new "a") as = [(1, .unmarshalled), (2, .written)] ∧
      (written (finished (new "a") as)).Sublist (offered as) := by
  intro as
  obtain ⟨s, hs⟩ := Option.isSome_iff_exists.mp
    (show (runSteps step (new "a" : ControllerTunnel ℕ) as).isSome = true by decide)
  exact ⟨by decide, (sent_in_order_at_most_once hs).1⟩

end ControllerTunnel

end OteStack
