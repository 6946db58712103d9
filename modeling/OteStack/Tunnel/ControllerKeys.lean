/-
# OteStack.Tunnel.ControllerKeys — whether the root finds a controller manager to report to.

`SendToControllerManager`, `controllerHandler` and `handleControlMsg` of `pkg/tunnel/cloudtunnel.go`.  The
clients of the controller managers are in a map, and their addresses in a slice besides, so that one can be
drawn at random.  A connection stores its client and then appends its address; a disconnection deletes the
client and then removes the address.  An action is one of these steps, or a search.

A search always returns, and finds a client if there is an address with one.  But the removal that ends
a disconnection may find the address gone, taken out by a search, and remove that of a new connection from
the same address instead: `reports_reach_iff` says when.
-/
import Mathlib.Algebra.BigOperators.Ring.Finset
import Mathlib.Algebra.Order.BigOperators.Group.Finset
import OteStack.Lib.StepSystem
import OteStack.Tunnel.ControllerSearch

namespace OteStack

open OteStack.Lib (Arrays GoMap Slice runSteps runSteps_invariant runSteps_invariant_of_meet StepsMeet
  stepsMeet_of_forall forall_prefix_append_iff forall_prefix_iff_of_lost exists_run_until)

/-! ## Connections and disconnections -/

/-- Where a connection of a controller manager is: its client stored but the address not appended, served,
or its client deleted but the address not removed. -/
inductive ControllerPhase where
  | stored
  | serving
  | deleted
  deriving DecidableEq, Repr

/-- A connection that the tunnel has accepted. -/
structure ControllerConn where
  addr : String
  phase : ControllerPhase
  deriving DecidableEq, Repr

/-- The part of a cloud tunnel that concerns controller managers.  A client is known by the number of its
connection. -/
structure CloudControllers where
  controllers : GoMap String ℕ
  arrays : Arrays String
  controllersKey : Slice
  conns : GoMap ℕ ControllerConn
  nextConn : ℕ
  deriving DecidableEq

/-- The steps. -/
inductive ControllersAction where
  | connect (addr : String)
  | appendKey (c : ℕ)
  | disconnect (c : ℕ)
  | removeKey (c : ℕ)
  | sendToControllerManager (rand : ℕ → ℕ)

namespace CloudControllers

open CloudTunnel

variable (grow : ℕ → ℕ → ℕ)

/-- A new tunnel: `make([]string, 0)`, and no clients. -/
def init : CloudControllers := ⟨∅, [[]], ⟨0, 0, 0, 0⟩, ∅, 0⟩

/-- The addresses in `controllersKey`. -/
def keys (s : CloudControllers) : List String := s.controllersKey.elems s.arrays

/-- The search of `SendToControllerManager`. -/
def search (s : CloudControllers) (rand : ℕ → ℕ) : Option (Option ℕ × Arrays String) :=
  findAController grow s.controllers rand (s.controllersKey.len + 1) s.arrays s.controllersKey

/-- One step.  A connection from an address that has a client is refused. -/
def step (s : CloudControllers) : ControllersAction → Option CloudControllers
  | .connect addr =>
      match s.controllers.get addr with
      | some _ => some s
      | none =>
          some { s with
            controllers := s.controllers.set addr s.nextConn
            conns := s.conns.set s.nextConn ⟨addr, .stored⟩
            nextConn := s.nextConn + 1 }
  | .appendKey c =>
      match s.conns.get c with
      | some ⟨addr, .stored⟩ =>
          let (arrays, controllersKey) := s.controllersKey.append grow s.arrays [addr]
          some { s with
            arrays := arrays
            controllersKey := controllersKey
            conns := s.conns.set c ⟨addr, .serving⟩ }
      | _ => none
  | .disconnect c =>
      match s.conns.get c with
      | some ⟨addr, .serving⟩ =>
          some { s with
            controllers := s.controllers.delete addr
            conns := s.conns.set c ⟨addr, .deleted⟩ }
      | _ => none
  | .removeKey c =>
      match s.conns.get c with
      | some ⟨addr, .deleted⟩ =>
          let (arrays, controllersKey) := removeFromSliceByValue grow s.arrays s.controllersKey addr
          some { s with
            arrays := arrays
            controllersKey := controllersKey
            conns := s.conns.delete c }
      | _ => none
  | .sendToControllerManager rand =>
      match search grow s rand with
      | some (_, arrays) => some { s with arrays := arrays }
      | none => none

/-- What each step needs, and what it makes of the map, the addresses and the connections. -/
inductive Transition (s : CloudControllers) : ControllersAction → CloudControllers → Prop where
  | refused {addr : String} (h : s.controllers.get addr ≠ none) : Transition s (.connect addr) s
  | connect {addr : String} (h : s.controllers.get addr = none) :
      Transition s (.connect addr) { s with
        controllers := s.controllers.set addr s.nextConn
        conns := s.conns.set s.nextConn ⟨addr, .stored⟩
        nextConn := s.nextConn + 1 }
  | appendKey {c : ℕ} {addr : String} {arrays : Arrays String} {controllersKey : Slice}
      (hc : s.conns.get c = some ⟨addr, .stored⟩) (hvalid : controllersKey.Valid arrays)
      (hkeys : controllersKey.elems arrays = s.keys ++ [addr]) :
      Transition s (.appendKey c) { s with
        arrays := arrays
        controllersKey := controllersKey
        conns := s.conns.set c ⟨addr, .serving⟩ }
  | disconnect {c : ℕ} {addr : String} (hc : s.conns.get c = some ⟨addr, .serving⟩) :
      Transition s (.disconnect c) { s with
        controllers := s.controllers.delete addr
        conns := s.conns.set c ⟨addr, .deleted⟩ }
  | removeKey {c : ℕ} {addr : String} {arrays : Arrays String} {controllersKey : Slice}
      (hc : s.conns.get c = some ⟨addr, .deleted⟩) (hvalid : controllersKey.Valid arrays)
      (hkeys : controllersKey.elems arrays = s.keys.erase addr) :
      Transition s (.removeKey c) { s with
        arrays := arrays
        controllersKey := controllersKey
        conns := s.conns.delete c }
  | sendToControllerManager {rand : ℕ → ℕ} {arrays : Arrays String}
      (hvalid : s.controllersKey.Valid arrays)
      (hkeys : s.controllersKey.elems arrays = (searchKeys s.controllers rand s.keys.length s.keys).2) :
      Transition s (.sendToControllerManager rand) { s with arrays := arrays }

variable {grow} {s s' : CloudControllers} {a : ControllersAction}

/-- A search on the arrays, as one on the list. -/
theorem search_eq (grow : ℕ → ℕ → ℕ) (hvalid : s.controllersKey.Valid s.arrays) (rand : ℕ → ℕ) :
    ∃ arrays, search grow s rand = some ((searchKeys s.controllers rand s.keys.length s.keys).1, arrays) ∧
      s.controllersKey.Valid arrays ∧
      s.controllersKey.elems arrays = (searchKeys s.controllers rand s.keys.length s.keys).2 := by
  have hlen : s.keys.length = s.controllersKey.len := Slice.length_elems hvalid
  rw [hlen]
  exact findAController_eq (Nat.lt_succ_self _) hvalid hvalid ⟨rfl, rfl, Nat.le_refl _⟩

theorem transition_of_step (hvalid : s.controllersKey.Valid s.arrays) (hstep : step grow s a = some s') :
    Transition s a s' := by
  cases a with
  | connect addr =>
      simp only [step] at hstep
      split at hstep
      · rename_i client hclient
        cases hstep
        exact .refused (by simp [hclient])
      · cases hstep
        exact .connect ‹_›
  | appendKey c =>
      simp only [step] at hstep
      split at hstep
      · rename_i addr hc
        obtain ⟨helems, hvalid'⟩ := Slice.elems_append grow hvalid [addr]
        cases hstep
        exact .appendKey hc hvalid' helems
      · cases hstep
  | disconnect c =>
      simp only [step] at hstep
      split at hstep
      · cases hstep
        exact .disconnect ‹_›
      · cases hstep
  | removeKey c =>
      simp only [step] at hstep
      split at hstep
      · rename_i addr hc
        cases hstep
        by_cases hmem : addr ∈ s.keys
        · obtain ⟨arrays, slice, hremove, -, -, hvalid', helems, -⟩ :=
            removeFromSliceByValue_spec grow hvalid hvalid ⟨rfl, rfl, Nat.le_refl _⟩ hmem
          rw [hremove]
          exact .removeKey hc hvalid' helems
        · have hnone : (s.controllersKey.elems s.arrays).idxOf? addr = none :=
            List.idxOf?_eq_none_iff.mpr hmem
          have hremove : removeFromSliceByValue grow s.arrays s.controllersKey addr =
              (s.arrays, s.controllersKey) := by
            rw [removeFromSliceByValue, hnone]
          rw [hremove]
          exact .removeKey hc hvalid (List.erase_of_not_mem hmem).symm
      · cases hstep
  | sendToControllerManager rand =>
      obtain ⟨arrays, hsearch, hvalid', hkeys⟩ := search_eq grow hvalid rand
      simp only [step, hsearch] at hstep
      cases hstep
      exact .sendToControllerManager hvalid' hkeys

/-! ## Clients and connections -/

/-- The slice is within its array, and the clients in the map are those of the connections that are stored
or served. -/
structure Consistent (s : CloudControllers) : Prop where
  valid : s.controllersKey.Valid s.arrays
  client : ∀ c addr phase, s.conns.get c = some ⟨addr, phase⟩ → phase ≠ .deleted →
    s.controllers.get addr = some c
  conn : ∀ addr c, s.controllers.get addr = some c →
    ∃ phase, s.conns.get c = some ⟨addr, phase⟩ ∧ phase ≠ .deleted
  fresh : ∀ c, s.conns.get c ≠ none → c < s.nextConn

/-- A connection is at one place. -/
theorem conn_unique {c : ℕ} {addr addr' : String} {phase phase' : ControllerPhase}
    (hc : s.conns.get c = some ⟨addr, phase⟩) (hc' : s.conns.get c = some ⟨addr', phase'⟩) :
    addr = addr' ∧ phase = phase' :=
  ControllerConn.mk.inj (Option.some.inj (hc.symm.trans hc'))

/-- Two clients in the map have different addresses. -/
theorem Consistent.addr_ne (h : s.Consistent) {c c' : ℕ} {addr addr' : String}
    {phase phase' : ControllerPhase} (hc : s.conns.get c = some ⟨addr, phase⟩) (hphase : phase ≠ .deleted)
    (hc' : s.conns.get c' = some ⟨addr', phase'⟩) (hphase' : phase' ≠ .deleted) (hne : c' ≠ c) :
    addr' ≠ addr := by
  rintro rfl
  have hclient := h.client c addr' phase hc hphase
  rw [h.client c' addr' phase' hc' hphase'] at hclient
  exact hne (Option.some.inj hclient)

theorem consistent_init : init.Consistent where
  valid := ⟨[], rfl, Nat.le_refl _, Nat.le_refl _⟩
  client := by simp [init]
  conn := by simp [init]
  fresh := by simp [init]

theorem Consistent.connect (h : s.Consistent) {addr : String} (haddr : s.controllers.get addr = none) :
    Consistent { s with
      controllers := s.controllers.set addr s.nextConn
      conns := s.conns.set s.nextConn ⟨addr, .stored⟩
      nextConn := s.nextConn + 1 } where
  valid := h.valid
  client := by
    intro c a phase hc hphase
    rcases GoMap.get_set_eq_some.mp hc with ⟨rfl, hconn⟩ | ⟨-, hc⟩
    · cases hconn
      exact GoMap.get_set_self _ _ _
    · have hclient := h.client c a phase hc hphase
      have hne : a ≠ addr := by
        rintro rfl
        rw [haddr] at hclient
        cases hclient
      exact (GoMap.get_set_of_ne _ hne _).trans hclient
  conn := by
    intro a c hclient
    rcases GoMap.get_set_eq_some.mp hclient with ⟨rfl, rfl⟩ | ⟨-, hclient⟩
    · exact ⟨.stored, GoMap.get_set_self _ _ _, by simp⟩
    · obtain ⟨phase, hc, hphase⟩ := h.conn a c hclient
      have hne : c ≠ s.nextConn := (h.fresh c (by simp [hc])).ne
      exact ⟨phase, (GoMap.get_set_of_ne _ hne _).trans hc, hphase⟩
  fresh := by
    intro c hc
    rcases GoMap.get_set_ne_none.mp hc with rfl | hc
    · exact Nat.lt_succ_self _
    · exact Nat.lt_succ_of_lt (h.fresh c hc)

/-- A step that changes the phase of a connection, and the map only if its client is deleted. -/
theorem Consistent.setPhase (h : s.Consistent) {c : ℕ} {addr : String} {old new : ControllerPhase}
    (hc : s.conns.get c = some ⟨addr, old⟩) (hold : old ≠ .deleted)
    (hvalid : s'.controllersKey.Valid s'.arrays) (hnext : s'.nextConn = s.nextConn)
    (hconns : s'.conns = s.conns.set c ⟨addr, new⟩)
    (hmap : s'.controllers = if new = .deleted then s.controllers.delete addr else s.controllers) :
    s'.Consistent where
  valid := hvalid
  client := by
    intro c' a phase hc' hphase
    rw [hconns] at hc'
    rcases GoMap.get_set_eq_some.mp hc' with ⟨rfl, hconn⟩ | ⟨hcc, hc'⟩
    · cases hconn
      rw [hmap, if_neg hphase]
      exact h.client c' addr old hc hold
    · have hclient := h.client c' a phase hc' hphase
      rw [hmap]
      split
      · exact (GoMap.get_delete_of_ne _ (h.addr_ne hc hold hc' hphase hcc)).trans hclient
      · exact hclient
  conn := by
    intro a c' hclient
    rw [hmap] at hclient
    have hclient' : s.controllers.get a = some c' := by
      split at hclient
      · exact GoMap.get_of_get_delete hclient
      · exact hclient
    obtain ⟨phase, hc', hphase⟩ := h.conn a c' hclient'
    rw [hconns]
    by_cases hcc : c' = c
    · subst hcc
      obtain ⟨rfl, -⟩ := conn_unique hc hc'
      refine ⟨new, GoMap.get_set_self _ _ _, ?_⟩
      rintro rfl
      rw [if_pos rfl, GoMap.get_delete_self] at hclient
      cases hclient
    · exact ⟨phase, (GoMap.get_set_of_ne _ hcc _).trans hc', hphase⟩
  fresh := by
    intro c' hc'
    rw [hconns] at hc'
    rw [hnext]
    rcases GoMap.get_set_ne_none.mp hc' with rfl | hc'
    · exact h.fresh c' (by simp [hc])
    · exact h.fresh c' hc'

theorem Consistent.removeKey (h : s.Consistent) {c : ℕ} {addr : String}
    (hc : s.conns.get c = some ⟨addr, .deleted⟩) {arrays : Arrays String} {controllersKey : Slice}
    (hvalid : controllersKey.Valid arrays) :
    Consistent { s with
      arrays := arrays
      controllersKey := controllersKey
      conns := s.conns.delete c } where
  valid := hvalid
  client c' a phase hc' hphase := h.client c' a phase (GoMap.get_of_get_delete hc') hphase
  conn := by
    intro a c' hclient
    obtain ⟨phase, hc', hphase⟩ := h.conn a c' hclient
    have hne : c' ≠ c := by
      rintro rfl
      exact hphase (conn_unique hc hc').2.symm
    exact ⟨phase, (GoMap.get_delete_of_ne _ hne).trans hc', hphase⟩
  fresh c' hc' := h.fresh c' (GoMap.get_delete_ne_none.mp hc').2

theorem consistent_step (h : s.Consistent) (hstep : step grow s a = some s') : s'.Consistent := by
  cases transition_of_step h.valid hstep with
  | refused _ => exact h
  | connect haddr => exact h.connect haddr
  | appendKey hc hvalid _ => exact h.setPhase hc (by simp) hvalid rfl rfl rfl
  | disconnect hc => exact h.setPhase hc (by simp) h.valid rfl rfl rfl
  | removeKey hc hvalid _ => exact h.removeKey hc hvalid
  | sendToControllerManager hvalid _ => exact ⟨hvalid, h.client, h.conn, h.fresh⟩

/-! ## Live addresses -/

/-- The address of every client that is served is among the addresses to draw from. -/
def LiveKeysListed (s : CloudControllers) : Prop :=
  ∀ c addr, s.conns.get c = some ⟨addr, .serving⟩ → addr ∈ s.keys

/-- A disconnection does not remove the last entry of an address from which another client is served. -/
def KeepsLiveKey (s : CloudControllers) : ControllersAction → Prop
  | .removeKey c => ∀ c' addr, s.conns.get c = some ⟨addr, .deleted⟩ →
      s.conns.get c' = some ⟨addr, .serving⟩ → addr ∈ s.keys.erase addr
  | _ => True

/-- No step loses the address of a client that is served, except for such a removal.  A search takes out
addresses without a client only. -/
theorem liveKeysListed_step_iff (h : s.Consistent) (hF : s.LiveKeysListed)
    (hstep : step grow s a = some s') : s'.LiveKeysListed ↔ s.KeepsLiveKey a := by
  cases transition_of_step h.valid hstep with
  | refused _ => exact iff_of_true hF trivial
  | connect _ =>
      refine iff_of_true (fun c addr hc => ?_) trivial
      rcases GoMap.get_set_eq_some.mp hc with ⟨-, hconn⟩ | ⟨-, hc⟩
      · cases hconn
      · exact hF c addr hc
  | @appendKey c addr arrays controllersKey hc _ hkeys =>
      refine iff_of_true (fun c' addr' hc' => ?_) trivial
      show addr' ∈ controllersKey.elems arrays
      rw [hkeys]
      rcases GoMap.get_set_eq_some.mp hc' with ⟨-, hconn⟩ | ⟨-, hc'⟩
      · cases hconn
        simp
      · exact List.mem_append_left _ (hF c' addr' hc')
  | @disconnect c addr hc =>
      refine iff_of_true (fun c' addr' hc' => ?_) trivial
      rcases GoMap.get_set_eq_some.mp hc' with ⟨-, hconn⟩ | ⟨-, hc'⟩
      · cases hconn
      · exact hF c' addr' hc'
  | @removeKey c addr arrays controllersKey hc _ hkeys =>
      have hother : ∀ c' addr', (s.conns.delete c).get c' = some ⟨addr', .serving⟩ ↔
          s.conns.get c' = some ⟨addr', .serving⟩ := by
        intro c' addr'
        refine ⟨GoMap.get_of_get_delete, fun hc' => ?_⟩
        have hcc : c' ≠ c := by
          rintro rfl
          simp [hc] at hc'
        exact (GoMap.get_delete_of_ne _ hcc).trans hc'
      constructor
      · intro hlive c' addr' haddr hc'
        obtain ⟨rfl, -⟩ := conn_unique hc haddr
        rw [← hkeys]
        exact hlive c' addr ((hother c' addr).mpr hc')
      · intro hkeeps c' addr' hc'
        have hserving := (hother c' addr').mp hc'
        show addr' ∈ controllersKey.elems arrays
        rw [hkeys]
        by_cases haddr : addr' = addr
        · subst haddr
          exact hkeeps c' addr' hc hserving
        · exact (List.mem_erase_of_ne haddr).mpr (hF c' addr' hserving)
  | @sendToControllerManager rand arrays _ hkeys =>
      refine iff_of_true (fun c addr hc => ?_) trivial
      show addr ∈ s.controllersKey.elems arrays
      rw [hkeys]
      refine (searchKeys_keeps (Nat.le_refl _)).2 addr (hF c addr hc) ?_
      simp [h.client c addr .serving hc]

/-- A search from a state, whatever is drawn: it returns, what it finds is the client of one of the
addresses, and it finds nothing only if no address has a client. -/
theorem search_returns (grow : ℕ → ℕ → ℕ) (h : s.Consistent) (rand : ℕ → ℕ) :
    ∃ r arrays, search grow s rand = some (r, arrays) ∧
      (∀ c, r = some c → ∃ addr ∈ s.keys, s.controllers.get addr = some c) ∧
      (r = none → ∀ k ∈ s.keys, s.controllers.get k = none) := by
  obtain ⟨arrays, hsearch, -, -⟩ := search_eq grow h.valid rand
  refine ⟨_, arrays, hsearch, fun c hc => searchKeys_some (Nat.le_refl _) hc, fun hnone => ?_⟩
  have hall := searchKeys_none (Nat.le_refl _) hnone
  rwa [List.take_length] at hall

/-- If a client is served, every search finds one. -/
def Reaches (grow : ℕ → ℕ → ℕ) (s : CloudControllers) : Prop :=
  (∃ c addr, s.conns.get c = some ⟨addr, .serving⟩) →
    ∀ rand, ∃ c arrays, search grow s rand = some (some c, arrays)

/-- Where every live address is listed, a search finds a client if one is served. -/
theorem LiveKeysListed.reaches (hlive : s.LiveKeysListed) (h : s.Consistent) : s.Reaches grow := by
  rintro ⟨c, addr, hc⟩ rand
  obtain ⟨r, arrays, hsearch, -, hnone⟩ := search_returns grow h rand
  cases r with
  | some c' => exact ⟨c', arrays, hsearch⟩
  | none =>
      have hgone := hnone rfl addr (hlive c addr hc)
      rw [h.client c addr .serving hc (by simp)] at hgone
      cases hgone

/-! ## A live address that is not listed -/

/-- Connections are completed, and clients go. -/
def Departs (as : List ControllersAction) : Prop :=
  ∀ a ∈ as, (∃ c, a = .appendKey c) ∨ ∃ c, a = .disconnect c

/-- Searches find a client that is served, whichever of the others go. -/
def AlwaysReaches (grow : ℕ → ℕ → ℕ) (s : CloudControllers) : Prop :=
  ∀ as t, Departs as → runSteps (step grow) s as = some t → t.Reaches grow

/-- The steps that a connection still needs until its client is out of the map. -/
def stepsLeft (conn : Option ControllerConn) : ℕ :=
  match conn with
  | some ⟨_, .stored⟩ => 2
  | some ⟨_, .serving⟩ => 1
  | _ => 0

/-- The steps that the connections other than `c` still need. -/
def othersLeft (s : CloudControllers) (c : ℕ) : ℕ := ∑ c' ∈ s.conns.keys.erase c, stepsLeft (s.conns.get c')

theorem othersLeft_lt {c c' : ℕ} {old new : ControllerConn} (hcc : c' ≠ c)
    (hc' : s.conns.get c' = some old) (hconns : s'.conns = s.conns.set c' new)
    (hlt : stepsLeft (some new) < stepsLeft (some old)) : s'.othersLeft c < s.othersLeft c := by
  have hkeys : s'.conns.keys = s.conns.keys := by
    ext i
    rw [hconns, ← not_iff_not, GoMap.notMem_keys, GoMap.notMem_keys, GoMap.get_set]
    by_cases hi : i = c'
    · simp [hi, hc']
    · simp [hi]
  have hget : ∀ i, stepsLeft (s'.conns.get i) ≤ stepsLeft (s.conns.get i) := by
    intro i
    rw [hconns, GoMap.get_set]
    split
    · rename_i hi
      rw [hi, hc']
      exact hlt.le
    · exact Nat.le_refl _
  rw [othersLeft, othersLeft, hkeys]
  refine Finset.sum_lt_sum (fun i _ => hget i) ⟨c', ?_, ?_⟩
  · exact Finset.mem_erase.mpr ⟨hcc, GoMap.mem_keys_of_get hc'⟩
  · rw [hconns, GoMap.get_set_self, hc']
    exact hlt

/-- The client `c` is served, from an address that is not listed. -/
structure Unlisted (s : CloudControllers) (c : ℕ) (addr : String) : Prop where
  consistent : s.Consistent
  serving : s.conns.get c = some ⟨addr, .serving⟩
  unlisted : addr ∉ s.keys

/-- As long as another client is in the map, a connection can be completed or a client can go. -/
theorem Unlisted.progress {c : ℕ} {addr : String} (h : s.Unlisted c addr)
    (hmore : ¬ ∀ k c', s.controllers.get k = some c' → c' = c) :
    ∃ a s', ((∃ c, a = .appendKey c) ∨ ∃ c, a = .disconnect c) ∧ step grow s a = some s' ∧
      s'.Unlisted c addr ∧ s'.othersLeft c < s.othersLeft c := by
  push Not at hmore
  obtain ⟨k, c', hclient, hcc⟩ := hmore
  obtain ⟨phase, hc', hphase⟩ := h.consistent.conn k c' hclient
  have hserving : ∀ new, (s.conns.set c' new).get c = some ⟨addr, .serving⟩ := fun new =>
    (GoMap.get_set_of_ne _ (fun h => hcc h.symm) _).trans h.serving
  cases phase with
  | deleted => exact absurd rfl hphase
  | stored =>
      obtain ⟨helems, hvalid⟩ := Slice.elems_append grow h.consistent.valid [k]
      -- the address that is appended is another one
      have hne : k ≠ addr := h.consistent.addr_ne h.serving (by simp) hc' hphase hcc
      have hstep : step grow s (.appendKey c') = some { s with
          arrays := (s.controllersKey.append grow s.arrays [k]).1
          controllersKey := (s.controllersKey.append grow s.arrays [k]).2
          conns := s.conns.set c' ⟨k, .serving⟩ } := by
        simp [step, hc']
      refine ⟨.appendKey c', _, .inl ⟨c', rfl⟩, hstep, ⟨consistent_step h.consistent hstep, hserving _, ?_⟩,
        othersLeft_lt hcc hc' rfl (by simp [stepsLeft])⟩
      intro hmem
      have hmem' : addr ∈ s.keys ++ [k] := helems ▸ hmem
      rcases List.mem_append.mp hmem' with hmem' | hmem'
      · exact h.unlisted hmem'
      · exact hne (List.mem_singleton.mp hmem').symm
  | serving =>
      have hstep : step grow s (.disconnect c') = some { s with
          controllers := s.controllers.delete k
          conns := s.conns.set c' ⟨k, .deleted⟩ } := by
        simp [step, hc']
      exact ⟨.disconnect c', _, .inr ⟨c', rfl⟩, hstep,
        ⟨consistent_step h.consistent hstep, hserving _, h.unlisted⟩,
        othersLeft_lt hcc hc' rfl (by simp [stepsLeft])⟩

/-- When all other clients have gone, no search finds the one whose address is not listed. -/
theorem Unlisted.not_alwaysReaches {c : ℕ} {addr : String} (h : s.Unlisted c addr) :
    ¬ s.AlwaysReaches grow := by
  intro hreach
  obtain ⟨as, t, hdeparts, hrun, ht, halone⟩ : ∃ as t, Departs as ∧ runSteps (step grow) s as = some t ∧
      t.Unlisted c addr ∧ ∀ k c', t.controllers.get k = some c' → c' = c :=
    exists_run_until (I := fun t : CloudControllers => t.Unlisted c addr)
      (f := fun t : CloudControllers => t.othersLeft c)
      (fun h hmore => h.progress hmore) h
  obtain ⟨c', arrays, hsearch⟩ := hreach as t hdeparts hrun ⟨c, addr, ht.serving⟩ fun _ => 0
  obtain ⟨r, arrays', hreturns, hsome, -⟩ := search_returns grow ht.consistent fun _ => 0
  obtain ⟨rfl, -⟩ := Prod.mk.inj (Option.some.inj (hreturns.symm.trans hsearch))
  obtain ⟨k, hk, hclient⟩ := hsome c' rfl
  obtain rfl := halone k c' hclient
  obtain ⟨phase, hc, -⟩ := ht.consistent.conn k c' hclient
  obtain ⟨rfl, -⟩ := conn_unique hc ht.serving
  exact ht.unlisted hk

/-- The invariant of a run in which no live address is lost. -/
theorem live_step (h : s.Consistent ∧ s.LiveKeysListed) (hok : s.KeepsLiveKey a)
    (hstep : step grow s a = some s') : s'.Consistent ∧ s'.LiveKeysListed :=
  ⟨consistent_step h.1 hstep, (liveKeysListed_step_iff h.1 h.2 hstep).mpr hok⟩

/-- A list of addresses with every live one stays so while connections are completed and clients go. -/
theorem alwaysReaches (h : s.Consistent) (hlive : s.LiveKeysListed) : s.AlwaysReaches grow := by
  intro as t hdeparts hrun
  have hmeet : StepsMeet (step grow) KeepsLiveKey s as := by
    refine stepsMeet_of_forall (fun a ha s => ?_) s
    rcases hdeparts a ha with ⟨c, rfl⟩ | ⟨c, rfl⟩
    · trivial
    · trivial
  obtain ⟨ht, hlive'⟩ : t.Consistent ∧ t.LiveKeysListed := runSteps_invariant_of_meet
    (I := fun t => t.Consistent ∧ t.LiveKeysListed) (fun h hok hstep => live_step h hok hstep) ⟨h, hlive⟩
    hmeet hrun
  exact hlive'.reaches ht

theorem not_alwaysReaches_of_lost (h : s.Consistent) (hlive : s.LiveKeysListed) (hbad : ¬ s.KeepsLiveKey a)
    (hstep : step grow s a = some s') : ¬ s'.AlwaysReaches grow := by
  have hlost : ¬ s'.LiveKeysListed := fun hlive' => hbad ((liveKeysListed_step_iff h hlive hstep).mp hlive')
  simp only [LiveKeysListed, not_forall] at hlost
  obtain ⟨c, addr, hc, hnot⟩ := hlost
  exact Unlisted.not_alwaysReaches ⟨consistent_step h hstep, hc, hnot⟩

/-- The removal of an address is possible for every disconnection. -/
theorem keepsLiveKey_of_impossible (hstep : step grow s a = none) : s.KeepsLiveKey a := by
  cases a with
  | removeKey c =>
      intro c' addr hc
      simp [step, hc] at hstep
  | _ => trivial

/-- Along a run from the start.  At every moment a search returns, whatever is drawn; what it finds is the
client of one of the addresses, and it finds nothing only if no address has a client.  Whichever clients then
go, a search finds one as long as one is served: this is so exactly when no disconnection removes the last
entry of an address from which another client is served. -/
theorem reports_reach_iff (grow : ℕ → ℕ → ℕ) (as : List ControllersAction) :
    (∀ bs t, bs <+: as → runSteps (step grow) init bs = some t → ∀ rand, ∃ r arrays,
      search grow t rand = some (r, arrays) ∧
      (∀ c, r = some c → ∃ addr ∈ t.keys, t.controllers.get addr = some c) ∧
      (r = none → ∀ k ∈ t.keys, t.controllers.get k = none)) ∧
    ((∀ bs cs t, bs <+: as → Departs cs → runSteps (step grow) init (bs ++ cs) = some t → t.Reaches grow) ↔
      StepsMeet (step grow) KeepsLiveKey init as) := by
  refine ⟨fun bs t _ ht rand => ?_, ?_⟩
  · have hcons : t.Consistent :=
      runSteps_invariant (fun h hstep => consistent_step h hstep) consistent_init ht
    exact search_returns grow hcons rand
  · have hiff : (∀ bs t, bs <+: as → runSteps (step grow) init bs = some t → t.AlwaysReaches grow) ↔
        StepsMeet (step grow) KeepsLiveKey init as :=
      forall_prefix_iff_of_lost (I := fun t => t.Consistent ∧ t.LiveKeysListed)
        (fun h hok hstep => live_step h hok hstep)
        (fun h hbad hstep => not_alwaysReaches_of_lost h.1 h.2 hbad hstep)
        (fun _ hstep => keepsLiveKey_of_impossible hstep) (fun h => alwaysReaches h.1 h.2)
        ⟨consistent_init, by simp [LiveKeysListed, init]⟩
    exact forall_prefix_append_iff.trans hiff

/-- Two controller managers connect, and one of them disconnects. -/
def twoManagers : List ControllersAction :=
  [.connect "x", .appendKey 0, .connect "y", .appendKey 1, .disconnect 0, .sendToControllerManager fun _ => 0]

/-- Doubling, as Go does for short slices. -/
def doubling (cap _ : ℕ) : ℕ := 2 * cap

/-- While the disconnection is half done, a search shifts the addresses: `x` is gone, `y` is there twice. -/
example : ((runSteps (step doubling) init twoManagers).map fun t => t.keys) = some ["y", "y"] := by decide

/-- The search has taken out `x` before the disconnection does.  A new connection from `x` comes in, the old
disconnection removes its address, and `y` goes. -/
def addressReused : List ControllersAction :=
  twoManagers ++ [.connect "x", .appendKey 2, .removeKey 0, .disconnect 1, .removeKey 1]

/-- The client of `x` is served, and no search finds it. -/
theorem reused_address_lost :
    (runSteps (step doubling) init addressReused).map (fun t =>
        (t.keys, t.conns.get 2, t.controllers.get "x", (search doubling t fun _ => 0).map Prod.fst)) =
      some (["y"], some ⟨"x", .serving⟩, some 2, some none) := by
  decide

end CloudControllers

end OteStack
