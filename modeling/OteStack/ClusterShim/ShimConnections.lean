/-
# OteStack.ClusterShim.ShimConnections — how many cluster controllers a shim server serves.

`do`, `connected` and `readMessage` of `pkg/clustershim/shimserver.go`.  A request is refused while a client
is installed.  Otherwise its connection is upgraded, installed as the client, and served by a goroutine
that reads from whatever client is current; when a read fails, that goroutine closes the current client
and clears it.

An action is one step of one request or goroutine, or a connection that drops.  Requests are numbered, and
a connection has the number of its request.  Where the code follows a nil client it panics and the process
ends; such a step has no successor.

The check and the installation are two steps.  `one_controller_iff` says that the shim serves one
controller at a time, whatever happens to the requests under way, exactly when no check passes while
another request is between its check and its installation.
-/
import Mathlib.Data.Finset.Card
import OteStack.Lib.GoMap
import OteStack.Lib.StepSystem

namespace OteStack.ClusterShim

open OteStack.Lib (GoMap runSteps runSteps_invariant_of_meet StepsMeet stepsMeet_of_forall
  forall_prefix_append_iff forall_prefix_iff_of_lost)

/-! ## Requests and the goroutines that serve them -/

/-- Where a request is: past the check, or with its connection upgraded. -/
inductive RequestPhase where
  | checked
  | upgraded
  deriving DecidableEq, Repr

/-- Where the goroutine of `connected` is: before the signal that a controller is connected, before the
next call of `ReadMessage`, in it, after it has failed, or before the clean-up. -/
inductive ServingPhase where
  | announcing
  | looping
  | reading (conn : ℕ)
  | failed
  | leaving
  deriving DecidableEq, Repr

/-- A shim server, with the connections that are open. -/
structure ShimConnections where
  ccclient : Option ℕ
  requests : GoMap ℕ RequestPhase
  servings : GoMap ℕ ServingPhase
  opened : Finset ℕ
  nextRequest : ℕ
  deriving DecidableEq

/-- The steps. -/
inductive ShimAction where
  | check
  | upgrade (r : ℕ) (success : Bool)
  | install (r : ℕ)
  | announce (g : ℕ)
  | read (g : ℕ)
  | message (g : ℕ)
  | readError (g : ℕ)
  | report (g : ℕ)
  | cleanUp (g : ℕ)
  | drop (conn : ℕ)
  deriving DecidableEq, Repr

namespace ShimConnections

/-- Before the first request. -/
def init : ShimConnections := ⟨none, ∅, ∅, ∅, 0⟩

/-- One step. -/
def step (s : ShimConnections) : ShimAction → Option ShimConnections
  | .check =>
      match s.ccclient with
      | some _ => some s
      | none =>
          some { s with
            requests := s.requests.set s.nextRequest .checked
            nextRequest := s.nextRequest + 1 }
  | .upgrade r success =>
      match s.requests.get r with
      | some .checked =>
          if success then
            some { s with requests := s.requests.set r .upgraded, opened := insert r s.opened }
          else some { s with requests := s.requests.delete r }
      | _ => none
  | .install r =>
      match s.requests.get r with
      | some .upgraded =>
          some { s with
            ccclient := some r
            requests := s.requests.delete r
            servings := s.servings.set r .announcing }
      | _ => none
  | .announce g =>
      match s.servings.get g with
      | some .announcing => some { s with servings := s.servings.set g .looping }
      | _ => none
  | .read g =>
      match s.servings.get g, s.ccclient with
      | some .looping, some conn => some { s with servings := s.servings.set g (.reading conn) }
      | _, _ => none
  | .message g =>
      match s.servings.get g with
      | some (.reading conn) =>
          if conn ∈ s.opened then some { s with servings := s.servings.set g .looping } else none
      | _ => none
  | .readError g =>
      match s.servings.get g with
      | some (.reading _) => some { s with servings := s.servings.set g .failed }
      | _ => none
  | .report g =>
      -- the message for the log has the name of the current client
      match s.servings.get g, s.ccclient with
      | some .failed, some _ => some { s with servings := s.servings.set g .leaving }
      | _, _ => none
  | .cleanUp g =>
      match s.servings.get g, s.ccclient with
      | some .leaving, some conn =>
          some { s with
            ccclient := none
            servings := s.servings.delete g
            opened := s.opened.erase conn }
      | _, _ => none
  | .drop conn => if conn ∈ s.opened then some { s with opened := s.opened.erase conn } else none

/-! ## One controller at a time -/

/-- No request is between its check and its installation, and no disconnection is being processed. -/
def Quiet (s : ShimConnections) : Prop :=
  s.requests = ∅ ∧ ∀ g ∈ s.servings.keys,
    g ∈ s.opened ∧ s.servings.get g ≠ some .failed ∧ s.servings.get g ≠ some .leaving

instance (s : ShimConnections) : Decidable s.Quiet := inferInstanceAs (Decidable (_ ∧ _))

/-- At most one connection is open, and when all is quiet there is a client exactly if there is a
connection. -/
def OneController (s : ShimConnections) : Prop :=
  s.opened.card ≤ 1 ∧ (s.Quiet → (s.ccclient = none ↔ s.opened = ∅))

instance (s : ShimConnections) : Decidable s.OneController := inferInstanceAs (Decidable (_ ∧ _))

/-- A check passes only while no other request is between its check and its installation. -/
def Unraced (s : ShimConnections) : ShimAction → Prop
  | .check => s.ccclient = none → s.requests = ∅
  | _ => True

instance (s : ShimConnections) : ∀ a, Decidable (s.Unraced a)
  | .check => inferInstanceAs (Decidable (_ → _))
  | .upgrade _ _ => .isTrue trivial
  | .install _ => .isTrue trivial
  | .announce _ => .isTrue trivial
  | .read _ => .isTrue trivial
  | .message _ => .isTrue trivial
  | .readError _ => .isTrue trivial
  | .report _ => .isTrue trivial
  | .cleanUp _ => .isTrue trivial
  | .drop _ => .isTrue trivial

/-- A map with one entry. -/
def only {α : Type} (k : ℕ) (v : α) : GoMap ℕ α := (∅ : GoMap ℕ α).set k v

section Only

variable {α : Type} {k k' : ℕ} {v v' : α}

theorem get_only : (only k v).get k' = if k' = k then some v else none := by
  rw [only, GoMap.get_set, GoMap.get_empty]

theorem eq_of_get_only (h : (only k v).get k' = some v') : k' = k ∧ v = v' := by
  rw [get_only] at h
  split at h
  · exact ⟨‹_›, Option.some.inj h⟩
  · cases h

theorem only_set : (only k v).set k v' = only k v' := by
  refine GoMap.ext fun i => ?_
  rw [GoMap.get_set, get_only, get_only]
  split <;> rfl

theorem only_delete : (only k v).delete k = ∅ := by
  refine GoMap.ext fun i => ?_
  rw [GoMap.get_delete, get_only, GoMap.get_empty]
  split <;> rfl

theorem only_ne_empty : only k v ≠ ∅ := by
  intro h
  have hget : (only k v).get k = none := by rw [h, GoMap.get_empty]
  rw [get_only, if_pos rfl] at hget
  cases hget

end Only

/-- The states of a server that takes up one request at a time. -/
inductive Serial : ShimConnections → Prop where
  | idle (n : ℕ) : Serial ⟨none, ∅, ∅, ∅, n⟩
  | checked {r n : ℕ} (hr : r < n) : Serial ⟨none, only r .checked, ∅, ∅, n⟩
  | upgraded {r n : ℕ} {opened : Finset ℕ} (hr : r < n) (ho : opened ⊆ {r}) :
      Serial ⟨none, only r .upgraded, ∅, opened, n⟩
  | serving {g n : ℕ} {phase : ServingPhase} {opened : Finset ℕ} (ho : opened ⊆ {g}) :
      Serial ⟨some g, ∅, only g phase, opened, n⟩

variable {s s' : ShimConnections} {a : ShimAction}

theorem Serial.oneController (h : Serial s) : s.OneController := by
  cases h with
  | idle n => exact ⟨by simp, by simp⟩
  | checked hr => exact ⟨by simp, by simp⟩
  | upgraded hr ho =>
      refine ⟨(Finset.card_le_card ho).trans (by simp), fun hq => ?_⟩
      exact absurd hq.1 only_ne_empty
  | @serving g n phase opened ho =>
      refine ⟨(Finset.card_le_card ho).trans (by simp), fun hq => ?_⟩
      -- the connection of the goroutine is open when nothing is being processed
      have hmem : g ∈ opened := (hq.2 g (GoMap.mem_keys_of_get (v := phase) (by simp [get_only]))).1
      refine iff_of_false (by simp) ?_
      exact Finset.ne_empty_of_mem hmem

/-! ## Requests one after the other -/

theorem serial_of_idle {n : ℕ} (hstep : step ⟨none, ∅, ∅, ∅, n⟩ a = some s') : Serial s' := by
  cases a with
  | check =>
      cases hstep
      exact .checked (Nat.lt_succ_self n)
  | _ => simp [step] at hstep

theorem serial_of_checked {r n : ℕ} (hr : r < n) (hok : Unraced ⟨none, only r .checked, ∅, ∅, n⟩ a)
    (hstep : step ⟨none, only r .checked, ∅, ∅, n⟩ a = some s') : Serial s' := by
  cases a with
  | check => exact absurd (hok rfl) only_ne_empty
  | upgrade r' success =>
      simp only [step] at hstep
      split at hstep
      · obtain ⟨rfl, -⟩ := eq_of_get_only ‹_›
        cases success with
        | true =>
            cases hstep
            rw [only_set]
            exact .upgraded hr (by simp)
        | false =>
            cases hstep
            rw [only_delete]
            exact .idle n
      · cases hstep
  | install r' =>
      simp only [step] at hstep
      split at hstep
      · exact absurd (eq_of_get_only ‹_›).2 (by simp)
      · cases hstep
  | _ => simp [step] at hstep

theorem serial_of_upgraded {r n : ℕ} {opened : Finset ℕ} (hr : r < n) (ho : opened ⊆ {r})
    (hok : Unraced ⟨none, only r .upgraded, ∅, opened, n⟩ a)
    (hstep : step ⟨none, only r .upgraded, ∅, opened, n⟩ a = some s') : Serial s' := by
  cases a with
  | check => exact absurd (hok rfl) only_ne_empty
  | upgrade r' success =>
      simp only [step] at hstep
      split at hstep
      · exact absurd (eq_of_get_only ‹_›).2 (by simp)
      · cases hstep
  | install r' =>
      simp only [step] at hstep
      split at hstep
      · obtain ⟨rfl, -⟩ := eq_of_get_only ‹_›
        cases hstep
        rw [only_delete]
        exact .serving ho
      · cases hstep
  | drop conn =>
      obtain ⟨-, hs'⟩ := Option.ite_none_right_eq_some.mp hstep
      cases hs'
      exact .upgraded hr ((Finset.erase_subset conn opened).trans ho)
  | _ => simp [step] at hstep

/-- The goroutine moves to another phase. -/
theorem serial_moves {g g' n : ℕ} {phase old new : ServingPhase} {opened : Finset ℕ} (ho : opened ⊆ {g})
    (hget : (only g phase).get g' = some old) :
    Serial ⟨some g, ∅, (only g phase).set g' new, opened, n⟩ := by
  obtain ⟨rfl, -⟩ := eq_of_get_only hget
  rw [only_set]
  exact .serving ho

theorem serial_of_serving {g n : ℕ} {phase : ServingPhase} {opened : Finset ℕ} (ho : opened ⊆ {g})
    (hstep : step ⟨some g, ∅, only g phase, opened, n⟩ a = some s') : Serial s' := by
  cases a with
  | check =>
      cases hstep
      exact .serving ho
  | upgrade r success => simp [step] at hstep
  | install r => simp [step] at hstep
  | announce g' | readError g' | report g' =>
      simp only [step] at hstep
      split at hstep
      · cases hstep
        exact serial_moves ho ‹_›
      · cases hstep
  | read g' =>
      simp only [step] at hstep
      split at hstep
      · rename_i hclient
        cases hclient
        cases hstep
        exact serial_moves ho ‹_›
      · cases hstep
  | message g' =>
      simp only [step] at hstep
      split at hstep
      · obtain ⟨-, hs'⟩ := Option.ite_none_right_eq_some.mp hstep
        cases hs'
        exact serial_moves ho ‹_›
      · cases hstep
  | cleanUp g' =>
      simp only [step] at hstep
      split at hstep
      · rename_i hget hclient
        cases hclient
        cases hstep
        obtain ⟨rfl, -⟩ := eq_of_get_only hget
        -- the current client is the one this goroutine was started for
        have hclosed : opened.erase g' = ∅ := by
          rw [Finset.erase_eq_empty_iff]
          exact Finset.subset_singleton_iff.mp ho
        rw [only_delete, hclosed]
        exact .idle n
      · cases hstep
  | drop conn =>
      obtain ⟨-, hs'⟩ := Option.ite_none_right_eq_some.mp hstep
      cases hs'
      exact .serving ((Finset.erase_subset conn opened).trans ho)

/-- A server that takes up one request at a time goes on to do so, unless a check is raced. -/
theorem serial_step (h : Serial s) (hok : s.Unraced a) (hstep : s.step a = some s') : Serial s' := by
  cases h with
  | idle n => exact serial_of_idle hstep
  | checked hr => exact serial_of_checked hr hok hstep
  | upgraded hr ho => exact serial_of_upgraded hr ho hok hstep
  | serving ho => exact serial_of_serving ho hstep

/-! ## Two requests at once -/

/-- No request comes in. -/
def NoRequest (as : List ShimAction) : Prop := ∀ a ∈ as, a ≠ .check

/-- Whatever happens to the requests under way, there is one controller at a time. -/
def Safe (s : ShimConnections) : Prop :=
  ∀ as t, NoRequest as → runSteps step s as = some t → t.OneController

theorem Serial.safe (h : Serial s) : s.Safe := by
  intro as t hno hrun
  have hmeet : StepsMeet step Unraced s as := by
    refine stepsMeet_of_forall (fun a ha s => ?_) s
    cases a with
    | check => exact absurd rfl (hno _ ha)
    | _ => trivial
  have ht : Serial t := runSteps_invariant_of_meet (fun h hok hstep => serial_step h hok hstep) h hmeet hrun
  exact ht.oneController

/-- Two requests that have both passed the check: both connections are upgraded. -/
theorem not_safe_of_checked {r n : ℕ} (hr : r < n) :
    ¬ Safe ⟨none, (only r .checked).set n .checked, ∅, ∅, n + 1⟩ := by
  intro h
  have hne : r ≠ n := hr.ne
  have hne' : n ≠ r := hr.ne'
  have hrun := h [.upgrade r true, .upgrade n true] _ (by simp [NoRequest])
    (by simp [runSteps, step, GoMap.get_set, get_only, hne, hne']; rfl)
  have hcard := hrun.1
  simp [hne'] at hcard

/-- A second request passes the check while the connection of the first one is open. -/
theorem not_safe_of_open {r n : ℕ} (hr : r < n) :
    ¬ Safe ⟨none, (only r .upgraded).set n .checked, ∅, {r}, n + 1⟩ := by
  intro h
  have hne' : n ≠ r := hr.ne'
  have hrun := h [.upgrade n true] _ (by simp [NoRequest])
    (by simp [runSteps, step]; rfl)
  have hcard := hrun.1
  simp [hne'] at hcard

/-- A second request passes the check while the connection of the first one has been upgraded and has
dropped.  The first one is installed after the second one, its goroutine finds the connection closed, and
clears the client while the second connection is open. -/
theorem not_safe_of_dropped {r n : ℕ} (hr : r < n) :
    ¬ Safe ⟨none, (only r .upgraded).set n .checked, ∅, ∅, n + 1⟩ := by
  intro h
  have hne : r ≠ n := hr.ne
  have hne' : n ≠ r := hr.ne'
  have hrun := h [.upgrade n true, .install n, .install r, .announce r, .read r, .readError r, .report r,
      .cleanUp r] _ (by simp [NoRequest])
    (by simp [runSteps, step, GoMap.get_set, GoMap.get_delete, get_only, hne]; rfl)
  -- both requests are through, and the goroutine of the second one has an open connection
  have hclient := hrun.2 ⟨by
      refine GoMap.ext fun i => ?_
      simp only [GoMap.get_delete, GoMap.get_set, get_only, GoMap.get_empty]
      split <;> simp_all, by
      intro g hg
      obtain ⟨phase, hphase⟩ := GoMap.mem_keys.mp hg
      simp only [GoMap.get_delete, GoMap.get_set, GoMap.get_empty] at hphase ⊢
      by_cases hgr : g = r
      · simp [hgr] at hphase
      · by_cases hgn : g = n
        · simp [hgn, hne']
        · simp [hgr, hgn] at hphase⟩
  have hempty := hclient.mp rfl
  simp at hempty

/-- A raced check leaves a schedule of the two requests that breaks the rule. -/
theorem not_safe_of_raced (h : Serial s) (hraced : ¬ s.Unraced a) (hstep : s.step a = some s') :
    ¬ s'.Safe := by
  cases a with
  | check =>
      simp only [Unraced, Classical.not_imp] at hraced
      obtain ⟨hclient, hrequests⟩ := hraced
      cases h with
      | idle n => exact absurd rfl hrequests
      | checked hr =>
          cases hstep
          exact not_safe_of_checked hr
      | upgraded hr ho =>
          cases hstep
          rcases Finset.subset_singleton_iff.mp ho with rfl | rfl
          · exact not_safe_of_dropped hr
          · exact not_safe_of_open hr
      | serving ho => cases hclient
  | _ => exact absurd trivial hraced

/-- A check is always possible. -/
theorem unraced_of_impossible (hstep : s.step a = none) : s.Unraced a := by
  cases a with
  | check =>
      simp only [step] at hstep
      split at hstep <;> cases hstep
  | _ => trivial

/-- At every moment of a run from the start, whatever then happens to the requests and connections there
are, at most one connection is open, and there is a client exactly if there is a connection when all is
quiet: this is so exactly when no check passes while another request is between its check and its
installation. -/
theorem one_controller_iff (as : List ShimAction) :
    (∀ bs cs t, bs <+: as → NoRequest cs → runSteps step init (bs ++ cs) = some t → t.OneController) ↔
      StepsMeet step Unraced init as := by
  have hiff : (∀ bs t, bs <+: as → runSteps step init bs = some t → t.Safe) ↔
      StepsMeet step Unraced init as := forall_prefix_iff_of_lost (I := Serial)
    (fun h hok hstep => serial_step h hok hstep) (fun h hraced hstep => not_safe_of_raced h hraced hstep)
    (fun _ hstep => unraced_of_impossible hstep) (fun h => h.safe) (.idle 0)
  exact forall_prefix_append_iff.trans hiff

/-- Two requests that pass the check before either is installed: both connections are open. -/
theorem raced_checks_open_two :
    (runSteps step init [.check, .check, .upgrade 0 true, .upgrade 1 true]).map
        (fun t => (t.opened.card, decide t.OneController)) = some (2, false) := by
  decide

end ShimConnections

end OteStack.ClusterShim
