/-
# OteStack.Tunnel.ControllerTunnel — the tunnel of the controller manager.

`pkg/tunnel/controller_tunnel.go`.  After `Start` two goroutines share the tunnel.  One reads from the
connection and, when reading fails, closes it and dials again under the lock of the condition variable.
The other takes messages from `sendChan` and writes them; after a failed write it sets the health flag,
without the lock, and waits on the condition variable until a reconnect has set it back.

An action is one move of one of the two, of a producer of messages or of the network.  A call of `connect`
is one `dial` per address it tries, since a redirect makes it call itself.  A `Send` reads the client first
and writes afterwards.  A write may fail on a connection that works, because its deadline has passed; it does
not close the connection, so whether that is still up is left to the network.  The lock is held exactly in the
phases `dialing` and `dialed` of the one and `checking` and `resending` of the other.

The tunnel knows two addresses, and a redirect overwrites the one it had remembered.
`configured_address_kept_iff` says which dials make it forget the address it was configured with.
-/
import Mathlib.Data.Nat.Basic
import OteStack.Lib.StepSystem

namespace OteStack

open OteStack.Lib (runSteps StepsMeet forall_prefix_iff_stepsMeet)

/-! ## The two goroutines -/

/-- How a dial ends.  A redirect whose location cannot be read is a failure. -/
inductive DialResult where
  | connected
  | failed
  | redirected (host : String)
  deriving DecidableEq, Repr

/-- Where the goroutine is that starts the tunnel, reads and reconnects.  `signalling` is before the call
of `Signal` after `Unlock`, with whether the loop of `reconnect` goes on afterwards. -/
inductive ReaderPhase where
  | starting
  | stopped
  | reading
  | closing
  | locking
  | dialing
  | dialed
  | signalling (again : Bool)
  deriving DecidableEq, Repr

/-- Where `sendFromChan` is, with the message in hand and, during and after a write, the number of the
connection written to. -/
inductive SenderPhase (M : Type) where
  | unstarted
  | receiving
  | sending (data : M)
  | writing (data : M) (conn : ℕ)
  | failed (data : M) (conn : ℕ)
  | locking (data : M)
  | checking (data : M)
  | waiting (data : M)
  | woken (data : M)
  | resending (data : M) (conn : ℕ)
  deriving DecidableEq, Repr

/-- A controller tunnel.  `wsclient` is the number of the current connection, from one on; zero is the nil
client.  `up` says whether that connection is open and works. -/
structure ControllerTunnel (M : Type) where
  cloudAddr : String
  originCloudAddr : String
  wsclient : ℕ
  up : Bool
  sendChan : List M
  connectionHealth : Bool
  reader : ReaderPhase
  sender : SenderPhase M
  deriving DecidableEq

/-- The moves. -/
inductive TunnelAction (M : Type) where
  | offer (msg : M)
  | breaks
  | dial (result : DialResult)
  | receive
  | readError
  | close
  | lockReader
  | recovered
  | signal
  | take (marshals : Bool)
  | send
  | write (success : Bool)
  | markUnhealthy
  | lockSender
  | check
  deriving DecidableEq, Repr

namespace ControllerTunnel

variable {M : Type}

/-- Go's `ControllerSendChanBufferSize`. -/
def controllerSendChanBufferSize : ℕ := 1000

/-- Go's `NewControllerTunnel`, with the call of `Start` that follows. -/
def new (remoteAddr : String) : ControllerTunnel M :=
  ⟨remoteAddr, "", 0, false, [], false, .starting, .unstarted⟩

/-- The lock of the condition variable is free. -/
def unlocked (s : ControllerTunnel M) : Bool :=
  (match s.reader with
    | .dialing | .dialed => false
    | _ => true) &&
  (match s.sender with
    | .checking _ | .resending _ _ => false
    | _ => true)

/-- A redirect, in `connect`. -/
def redirect (s : ControllerTunnel M) (host : String) : ControllerTunnel M :=
  { s with originCloudAddr := s.cloudAddr, cloudAddr := host }

/-- The new client that `connect` installs. -/
def install (s : ControllerTunnel M) : ControllerTunnel M :=
  { s with wsclient := s.wsclient + 1, up := true }

/-- The addresses after a `connect` of `reconnect` that failed. -/
def dialFailed (s : ControllerTunnel M) : ControllerTunnel M :=
  if s.originCloudAddr ≠ "" then { s with cloudAddr := s.originCloudAddr, originCloudAddr := "" } else s

/-- What `Signal` does to the sender. -/
def wake : SenderPhase M → SenderPhase M
  | .waiting data => .woken data
  | p => p

/-- The end of a dial: in `Start`, where an error is returned and success starts the two goroutines, or in
`reconnect`, which keeps the lock until the flag is set. -/
def dialStep (s : ControllerTunnel M) (result : DialResult) : Option (ControllerTunnel M) :=
  match s.reader, result with
  | .starting, .redirected host => some (s.redirect host)
  | .starting, .failed => some { s with reader := .stopped }
  | .starting, .connected =>
      some { s.install with connectionHealth := true, reader := .reading, sender := .receiving }
  | .dialing, .redirected host => some (s.redirect host)
  | .dialing, .failed => some { s.dialFailed with reader := .signalling true }
  | .dialing, .connected => some { s.install with reader := .dialed }
  | _, _ => none

/-- The end of a write, in `sendFromChan` or under the lock in `recoverAndReSend`.  The nil client refuses
every message. -/
def writeStep (s : ControllerTunnel M) (success : Bool) : Option (ControllerTunnel M) :=
  match s.sender with
  | .writing data conn =>
      if success then if conn = 0 then none else some { s with sender := .receiving }
      else some { s with sender := .failed data conn }
  | .resending data conn =>
      if success then if conn = 0 then none else some { s with sender := .receiving }
      else some { s with connectionHealth := false, sender := .locking data }
  | _ => none

/-- The loop test of `recoverAndReSend` and what follows it: the resend, the error for a full channel, or
`Wait`. -/
def checkStep (s : ControllerTunnel M) : Option (ControllerTunnel M) :=
  match s.sender with
  | .checking data =>
      if s.connectionHealth then some { s with sender := .resending data s.wsclient }
      else if s.sendChan.length = controllerSendChanBufferSize then some { s with sender := .receiving }
      else some { s with sender := .waiting data }
  | _ => none

/-- One move. -/
def step (s : ControllerTunnel M) : TunnelAction M → Option (ControllerTunnel M)
  | .offer msg =>
      if s.sendChan.length < controllerSendChanBufferSize then
        some { s with sendChan := s.sendChan ++ [msg] }
      else none
  | .breaks => some { s with up := false }
  | .dial result => s.dialStep result
  | .receive => if s.reader = .reading then some s else none
  | .readError => if s.reader = .reading then some { s with up := false, reader := .closing } else none
  | .close => if s.reader = .closing then some { s with reader := .locking } else none
  | .lockReader =>
      if s.reader = .locking ∧ s.unlocked then
        some { s with connectionHealth := false, reader := .dialing }
      else none
  | .recovered =>
      if s.reader = .dialed then some { s with connectionHealth := true, reader := .signalling false }
      else none
  | .signal =>
      match s.reader with
      | .signalling again =>
          some { s with
            reader := if again then .locking else .reading
            sender := wake s.sender }
      | _ => none
  | .take marshals =>
      match s.sender, s.sendChan with
      | .receiving, msg :: rest =>
          some { s with
            sendChan := rest
            sender := if marshals then .sending msg else .receiving }
      | _, _ => none
  | .send =>
      match s.sender with
      | .sending data => some { s with sender := .writing data s.wsclient }
      | _ => none
  | .write success => s.writeStep success
  | .markUnhealthy =>
      match s.sender with
      | .failed data _ => some { s with connectionHealth := false, sender := .locking data }
      | _ => none
  | .lockSender =>
      match s.sender with
      | .locking data | .woken data =>
          if s.unlocked then some { s with sender := .checking data } else none
      | _ => none
  | .check => s.checkStep

/-! ## What a move does -/

/-- What each move needs, and what it makes of the tunnel. -/
inductive Transition (s : ControllerTunnel M) : TunnelAction M → ControllerTunnel M → Prop where
  | offer {msg : M} (hroom : s.sendChan.length < controllerSendChanBufferSize) :
      Transition s (.offer msg) { s with sendChan := s.sendChan ++ [msg] }
  | breaks : Transition s .breaks { s with up := false }
  | redirected {host : String} (hr : s.reader = .starting ∨ s.reader = .dialing) :
      Transition s (.dial (.redirected host)) (s.redirect host)
  | startFailed (hr : s.reader = .starting) :
      Transition s (.dial .failed) { s with reader := .stopped }
  | started (hr : s.reader = .starting) :
      Transition s (.dial .connected)
        { s.install with connectionHealth := true, reader := .reading, sender := .receiving }
  | dialFailed (hr : s.reader = .dialing) :
      Transition s (.dial .failed) { s.dialFailed with reader := .signalling true }
  | dialed (hr : s.reader = .dialing) :
      Transition s (.dial .connected) { s.install with reader := .dialed }
  | receive (hr : s.reader = .reading) : Transition s .receive s
  | readError (hr : s.reader = .reading) :
      Transition s .readError { s with up := false, reader := .closing }
  | close (hr : s.reader = .closing) : Transition s .close { s with reader := .locking }
  | lockReader (hr : s.reader = .locking) (hlock : s.unlocked = true) :
      Transition s .lockReader { s with connectionHealth := false, reader := .dialing }
  | recovered (hr : s.reader = .dialed) :
      Transition s .recovered { s with connectionHealth := true, reader := .signalling false }
  | signal {again : Bool} (hr : s.reader = .signalling again) :
      Transition s .signal { s with
        reader := if again then .locking else .reading
        sender := wake s.sender }
  | take {marshals : Bool} {msg : M} {rest : List M} (hs : s.sender = .receiving)
      (hchan : s.sendChan = msg :: rest) :
      Transition s (.take marshals) { s with
        sendChan := rest
        sender := if marshals then .sending msg else .receiving }
  | send {data : M} (hs : s.sender = .sending data) :
      Transition s .send { s with sender := .writing data s.wsclient }
  | written {data : M} {conn : ℕ} (hs : s.sender = .writing data conn ∨ s.sender = .resending data conn)
      (hconn : conn ≠ 0) : Transition s (.write true) { s with sender := .receiving }
  | writeFailed {data : M} {conn : ℕ} (hs : s.sender = .writing data conn) :
      Transition s (.write false) { s with sender := .failed data conn }
  | resendFailed {data : M} {conn : ℕ} (hs : s.sender = .resending data conn) :
      Transition s (.write false) { s with connectionHealth := false, sender := .locking data }
  | markUnhealthy {data : M} {conn : ℕ} (hs : s.sender = .failed data conn) :
      Transition s .markUnhealthy { s with connectionHealth := false, sender := .locking data }
  | lockSender {data : M} (hs : s.sender = .locking data ∨ s.sender = .woken data)
      (hlock : s.unlocked = true) : Transition s .lockSender { s with sender := .checking data }
  | resend {data : M} (hs : s.sender = .checking data) (hh : s.connectionHealth = true) :
      Transition s .check { s with sender := .resending data s.wsclient }
  | throw {data : M} (hs : s.sender = .checking data) (hh : s.connectionHealth = false)
      (hfull : s.sendChan.length = controllerSendChanBufferSize) :
      Transition s .check { s with sender := .receiving }
  | wait {data : M} (hs : s.sender = .checking data) (hh : s.connectionHealth = false)
      (hroom : s.sendChan.length ≠ controllerSendChanBufferSize) :
      Transition s .check { s with sender := .waiting data }

variable {s s' : ControllerTunnel M} {a : TunnelAction M}

theorem transition_of_dialStep {result : DialResult} (h : s.dialStep result = some s') :
    Transition s (.dial result) s' := by
  unfold dialStep at h
  split at h
  · cases h
    exact .redirected (.inl ‹_›)
  · cases h
    exact .startFailed ‹_›
  · cases h
    exact .started ‹_›
  · cases h
    exact .redirected (.inr ‹_›)
  · cases h
    exact .dialFailed ‹_›
  · cases h
    exact .dialed ‹_›
  · cases h

theorem transition_of_writeStep {success : Bool} (h : s.writeStep success = some s') :
    Transition s (.write success) s' := by
  unfold writeStep at h
  split at h
  · cases success with
    | true =>
        obtain ⟨hconn, hs'⟩ := Option.ite_none_left_eq_some.mp h
        cases hs'
        exact .written (.inl ‹_›) hconn
    | false =>
        cases h
        exact .writeFailed ‹_›
  · cases success with
    | true =>
        obtain ⟨hconn, hs'⟩ := Option.ite_none_left_eq_some.mp h
        cases hs'
        exact .written (.inr ‹_›) hconn
    | false =>
        cases h
        exact .resendFailed ‹_›
  · cases h

theorem transition_of_checkStep (h : s.checkStep = some s') : Transition s .check s' := by
  unfold checkStep at h
  split at h
  · split at h
    · cases h
      exact .resend ‹_› ‹_›
    · rename_i hh
      have hfalse : s.connectionHealth = false := Bool.eq_false_iff.mpr hh
      split at h
      · cases h
        exact .throw ‹_› hfalse ‹_›
      · cases h
        exact .wait ‹_› hfalse ‹_›
  · cases h

theorem transition_of_step (hstep : s.step a = some s') : Transition s a s' := by
  cases a with
  | offer msg =>
      obtain ⟨hroom, hs'⟩ := Option.ite_none_right_eq_some.mp hstep
      cases hs'
      exact .offer hroom
  | breaks =>
      cases hstep
      exact .breaks
  | dial result => exact transition_of_dialStep hstep
  | receive =>
      obtain ⟨hr, hs'⟩ := Option.ite_none_right_eq_some.mp hstep
      cases hs'
      exact .receive hr
  | readError =>
      obtain ⟨hr, hs'⟩ := Option.ite_none_right_eq_some.mp hstep
      cases hs'
      exact .readError hr
  | close =>
      obtain ⟨hr, hs'⟩ := Option.ite_none_right_eq_some.mp hstep
      cases hs'
      exact .close hr
  | lockReader =>
      obtain ⟨⟨hr, hlock⟩, hs'⟩ := Option.ite_none_right_eq_some.mp hstep
      cases hs'
      exact .lockReader hr hlock
  | recovered =>
      obtain ⟨hr, hs'⟩ := Option.ite_none_right_eq_some.mp hstep
      cases hs'
      exact .recovered hr
  | signal =>
      simp only [step] at hstep
      split at hstep
      · cases hstep
        exact .signal ‹_›
      · cases hstep
  | take marshals =>
      simp only [step] at hstep
      split at hstep
      · cases hstep
        exact .take ‹_› ‹_›
      · cases hstep
  | send =>
      simp only [step] at hstep
      split at hstep
      · cases hstep
        exact .send ‹_›
      · cases hstep
  | write success => exact transition_of_writeStep hstep
  | markUnhealthy =>
      simp only [step] at hstep
      split at hstep
      · cases hstep
        exact .markUnhealthy ‹_›
      · cases hstep
  | lockSender =>
      simp only [step] at hstep
      split at hstep
      · obtain ⟨hlock, hs'⟩ := Option.ite_none_right_eq_some.mp hstep
        cases hs'
        exact .lockSender (.inl ‹_›) hlock
      · obtain ⟨hlock, hs'⟩ := Option.ite_none_right_eq_some.mp hstep
        cases hs'
        exact .lockSender (.inr ‹_›) hlock
      · cases hstep
  | check => exact transition_of_checkStep hstep

/-! ## The configured address -/

/-- The address is the one dialled or the one remembered. -/
def Remembers (s : ControllerTunnel M) (addr : String) : Prop :=
  s.cloudAddr = addr ∨ s.originCloudAddr = addr

instance (s : ControllerTunnel M) (addr : String) : Decidable (s.Remembers addr) :=
  inferInstanceAs (Decidable (_ ∨ _))

/-- A redirect away from the address, or back to it; a failure after a redirect that started at it.  An
empty address is remembered by the reset itself. -/
def KeepsAddr (addr : String) (s : ControllerTunnel M) : TunnelAction M → Prop
  | .dial (.redirected host) => s.cloudAddr = addr ∨ host = addr
  | .dial .failed =>
      s.reader = .dialing → s.originCloudAddr ≠ "" → s.originCloudAddr = addr ∨ addr = ""
  | _ => True

theorem remembers_redirect (host addr : String) :
    (s.redirect host).Remembers addr ↔ s.cloudAddr = addr ∨ host = addr := or_comm

theorem remembers_dialFailed {addr : String} (hF : s.Remembers addr) :
    s.dialFailed.Remembers addr ↔ (s.originCloudAddr ≠ "" → s.originCloudAddr = addr ∨ addr = "") := by
  unfold dialFailed
  by_cases ho : s.originCloudAddr = ""
  · rw [if_neg (by simp [ho])]
    exact iff_of_true hF fun hne => absurd ho hne
  · rw [if_pos ho]
    constructor
    · rintro (h | h) -
      · exact Or.inl h
      · exact Or.inr h.symm
    · intro h
      rcases h ho with h | h
      · exact Or.inl h
      · exact Or.inr h.symm

/-- A move keeps the configured address exactly when it is not one of the two that lose it. -/
theorem remembers_step_iff {addr : String} (hF : s.Remembers addr) (hstep : s.step a = some s') :
    s'.Remembers addr ↔ s.KeepsAddr addr a := by
  cases transition_of_step hstep with
  | redirected _ => exact remembers_redirect _ addr
  | startFailed hr =>
      refine iff_of_true hF fun hdialing => ?_
      rw [hr] at hdialing
      cases hdialing
  | dialFailed hr =>
      refine Iff.trans (remembers_dialFailed hF) ?_
      exact ⟨fun h _ => h, fun h => h hr⟩
  -- no other move writes an address
  | _ => exact iff_of_true hF trivial

/-- Along a run from the start, the configured address is always the one dialled or the one remembered
exactly when every redirect leads away from it or back to it and no failure resets a tunnel that has been
redirected from elsewhere. -/
theorem configured_address_kept_iff {addr : String} {as : List (TunnelAction M)}
    {s' : ControllerTunnel M} (hrun : runSteps step (new addr) as = some s') :
    (∀ bs t, bs <+: as → runSteps step (new addr) bs = some t → t.Remembers addr) ↔
      StepsMeet step (KeepsAddr addr) (new addr) as :=
  forall_prefix_iff_stepsMeet (I := fun _ => True) (F := fun t => t.Remembers addr)
    (fun _ _ _ => trivial) (fun _ hF hstep => remembers_step_iff hF hstep) trivial (.inl rfl) hrun

/-- A redirect from the configured address, and a failure that leads back to it. -/
theorem configured_address_kept_once :
    ((runSteps step (new "a" : ControllerTunnel ℕ) [.dial (.redirected "b"), .dial .connected, .readError,
        .close, .lockReader, .dial .failed]).map fun t => decide (t.cloudAddr = "a")) = some true ∧
      ∀ bs t, bs <+: [.dial (.redirected "b"), .dial .connected, .readError, .close, .lockReader,
          .dial .failed] →
        runSteps step (new "a" : ControllerTunnel ℕ) bs = some t → t.Remembers "a" := by
  refine ⟨by decide, ?_⟩
  obtain ⟨s', hs'⟩ := Option.isSome_iff_exists.mp (show (runSteps step (new "a" : ControllerTunnel ℕ)
    [.dial (.redirected "b"), .dial .connected, .readError, .close, .lockReader,
      .dial .failed]).isSome = true by decide)
  refine (configured_address_kept_iff hs').mpr ⟨Or.inl rfl, trivial, trivial, trivial, trivial, ?_, trivial⟩
  exact fun _ _ => Or.inl rfl

/-- Two redirects in a row: the address before the first one is in neither field, and when the last one
fails the tunnel goes back to the one in between. -/
theorem redirect_chain_forgets :
    (runSteps step (new "a" : ControllerTunnel ℕ) [.dial (.redirected "b"), .dial (.redirected "c")]).map
        (fun t => (t.cloudAddr, t.originCloudAddr, decide (t.Remembers "a"))) =
      some ("c", "b", false) := by
  decide

end ControllerTunnel

end OteStack
