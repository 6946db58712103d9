/-
# OteStack.Tunnel.KeyBalance — whether the list of controller addresses stays true to the map.

In `controllersKey` every connection should have one entry from the moment its address is appended until it
is removed: the list is then balanced.  Connections and disconnections keep the balance.  A search that
takes out an address keeps the length of the list and repeats the last entry instead, so the address of
a disconnection under way can be gone and another one be there twice.

`key_list_sound_iff`: whatever connections and disconnections are then brought to their end, the list has
no duplicates and is that of the clients, exactly when no search draws an address without a client unless it is
the last of those left to draw from; and no search does when it runs while no disconnection is half done.
-/
import Mathlib.Data.Finset.Card
import Mathlib.Data.List.Perm.Basic
import OteStack.Tunnel.ControllerKeys

namespace OteStack

open OteStack.Lib (GoMap runSteps runSteps_invariant_of_meet forall_prefix_append_iff
  StepsMeet stepsMeet_of_forall stepsMeet_of_invariant forall_prefix_iff_of_lost exists_run_until)

namespace CloudControllers

open CloudTunnel

variable {grow : ℕ → ℕ → ℕ} {s s' : CloudControllers} {a : ControllersAction}

/-! ## One entry for each connection -/

/-- The connections that should have an entry for the address. -/
def held (s : CloudControllers) (addr : String) : Finset ℕ :=
  s.conns.keys.filter fun c => s.conns.get c = some ⟨addr, .serving⟩ ∨ s.conns.get c = some ⟨addr, .deleted⟩

theorem mem_held {addr : String} {c : ℕ} :
    c ∈ s.held addr ↔ s.conns.get c = some ⟨addr, .serving⟩ ∨ s.conns.get c = some ⟨addr, .deleted⟩ := by
  rw [held, Finset.mem_filter]
  refine ⟨fun h => h.2, fun h => ⟨?_, h⟩⟩
  rcases h with h | h
  · exact GoMap.mem_keys_of_get h
  · exact GoMap.mem_keys_of_get h

/-- Every connection whose address has been appended and not removed has one entry. -/
def Balanced (s : CloudControllers) : Prop := ∀ addr, s.keys.count addr = (s.held addr).card

/-- An address has more entries than connections that should have one. -/
def Surplus (s : CloudControllers) (addr : String) : Prop := (s.held addr).card < s.keys.count addr

/-- No connection or disconnection is half done. -/
def Quiescent (s : CloudControllers) : Prop :=
  ∀ c conn, s.conns.get c = some conn → conn.phase = .serving

/-- No duplicates, and exactly the addresses of the clients. -/
def SoundKeys (s : CloudControllers) : Prop :=
  s.keys.Nodup ∧ ∀ addr, addr ∈ s.keys ↔ s.controllers.get addr ≠ none

/-- The connections that should have an entry for an address are those of before, if a step changes no
connection with that address to or from one that should have one. -/
theorem held_congr {addr : String} (h : ∀ c, (s'.conns.get c = some ⟨addr, .serving⟩ ∨
    s'.conns.get c = some ⟨addr, .deleted⟩) ↔ (s.conns.get c = some ⟨addr, .serving⟩ ∨
    s.conns.get c = some ⟨addr, .deleted⟩)) : s'.held addr = s.held addr := by
  ext c
  rw [mem_held, mem_held]
  exact h c

/-- A connection whose address is appended: one more should have an entry, and one more has. -/
theorem entries_appendKey {c : ℕ} {addr : String} (hc : s.conns.get c = some ⟨addr, .stored⟩)
    (hconns : s'.conns = s.conns.set c ⟨addr, .serving⟩) (hkeys : s'.keys = s.keys ++ [addr])
    (addr' : String) :
    ∃ d, (s'.held addr').card = (s.held addr').card + d ∧ s'.keys.count addr' = s.keys.count addr' + d := by
  rw [hkeys, List.count_append]
  by_cases haddr : addr = addr'
  · subst haddr
    have hinsert : s'.held addr = insert c (s.held addr) := by
      ext c'
      rw [Finset.mem_insert, mem_held, mem_held, hconns]
      by_cases hcc : c' = c
      · simp [hcc]
      · simp [GoMap.get_set_of_ne _ hcc, hcc]
    have hnew : c ∉ s.held addr := by simp [mem_held, hc]
    exact ⟨1, by rw [hinsert, Finset.card_insert_of_notMem hnew], by simp⟩
  · have hsame : s'.held addr' = s.held addr' := by
      refine held_congr fun c' => ?_
      rw [hconns]
      by_cases hcc : c' = c
      · subst hcc
        simp [hc, haddr]
      · simp [GoMap.get_set_of_ne _ hcc]
    exact ⟨0, by rw [hsame, Nat.add_zero], by simp [haddr]⟩

/-- A disconnection whose address is removed: one less should have an entry, and one less has if there was
any. -/
theorem entries_removeKey {c : ℕ} {addr : String} (hc : s.conns.get c = some ⟨addr, .deleted⟩)
    (hconns : s'.conns = s.conns.delete c) (hkeys : s'.keys = s.keys.erase addr) (addr' : String) :
    ∃ d, (s.held addr').card = (s'.held addr').card + d ∧ s'.keys.count addr' = s.keys.count addr' - d := by
  rw [hkeys]
  by_cases haddr : addr = addr'
  · subst haddr
    have herase : s'.held addr = (s.held addr).erase c := by
      ext c'
      rw [Finset.mem_erase, mem_held, mem_held, hconns]
      by_cases hcc : c' = c
      · simp [hcc]
      · simp [GoMap.get_delete_of_ne _ hcc, hcc]
    have hold : c ∈ s.held addr := by simp [mem_held, hc]
    exact ⟨1, by rw [herase, Finset.card_erase_add_one hold], List.count_erase_self⟩
  · have hsame : s'.held addr' = s.held addr' := by
      refine held_congr fun c' => ?_
      rw [hconns]
      by_cases hcc : c' = c
      · subst hcc
        simp [hc, haddr]
      · simp [GoMap.get_delete_of_ne _ hcc]
    exact ⟨0, by rw [hsame, Nat.add_zero], List.count_erase_of_ne fun h => haddr h.symm⟩

section Ending

variable {c : ℕ} {addr addr' : String}

theorem Balanced.appendKey (hF : s.Balanced) (hc : s.conns.get c = some ⟨addr, .stored⟩)
    (hconns : s'.conns = s.conns.set c ⟨addr, .serving⟩) (hkeys : s'.keys = s.keys ++ [addr]) :
    s'.Balanced := by
  intro addr'
  obtain ⟨d, hcard, hcount⟩ := entries_appendKey hc hconns hkeys addr'
  rw [hcard, hcount, hF addr']

theorem Balanced.removeKey (hF : s.Balanced) (hc : s.conns.get c = some ⟨addr, .deleted⟩)
    (hconns : s'.conns = s.conns.delete c) (hkeys : s'.keys = s.keys.erase addr) : s'.Balanced := by
  intro addr'
  obtain ⟨d, hcard, hcount⟩ := entries_removeKey hc hconns hkeys addr'
  rw [hcount, hF addr', hcard, Nat.add_sub_cancel]

theorem Surplus.appendKey (hF : s.Surplus addr') (hc : s.conns.get c = some ⟨addr, .stored⟩)
    (hconns : s'.conns = s.conns.set c ⟨addr, .serving⟩) (hkeys : s'.keys = s.keys ++ [addr]) :
    s'.Surplus addr' := by
  obtain ⟨d, hcard, hcount⟩ := entries_appendKey hc hconns hkeys addr'
  rw [Surplus, hcard, hcount]
  exact Nat.add_lt_add_right hF d

theorem Surplus.removeKey (hF : s.Surplus addr') (hc : s.conns.get c = some ⟨addr, .deleted⟩)
    (hconns : s'.conns = s.conns.delete c) (hkeys : s'.keys = s.keys.erase addr) : s'.Surplus addr' := by
  obtain ⟨d, hcard, hcount⟩ := entries_removeKey hc hconns hkeys addr'
  rw [Surplus, hcount]
  rw [Surplus, hcard] at hF
  exact Nat.lt_sub_of_add_lt hF

end Ending

/-- Every address without a client that a search draws is the last of those left to draw from. -/
def SearchDrawsLast (s : CloudControllers) : ControllersAction → Prop
  | .sendToControllerManager rand => DrawsLast s.controllers rand s.keys.length s.keys
  | _ => True

/-- Such a search, and no other, leaves the entries as they are up to their order. -/
theorem perm_searchKeys_iff (s : CloudControllers) (rand : ℕ → ℕ) :
    (searchKeys s.controllers rand s.keys.length s.keys).2.Perm s.keys ↔
      s.SearchDrawsLast (.sendToControllerManager rand) := by
  rw [searchKeys_perm_iff (Nat.le_refl _), List.take_length]
  rfl

/-- A connection or a disconnection keeps the balance, and so does a search exactly when it leaves the
entries as they are. -/
theorem balanced_step_iff (h : s.Consistent) (hF : s.Balanced) (hstep : step grow s a = some s') :
    s'.Balanced ↔ s.SearchDrawsLast a := by
  cases transition_of_step h.valid hstep with
  | refused _ => exact iff_of_true hF trivial
  | connect _ =>
      have hnone : s.conns.get s.nextConn = none := by
        by_contra hne
        exact Nat.lt_irrefl _ (h.fresh _ hne)
      refine iff_of_true (fun addr' => (hF addr').trans ?_) trivial
      -- a connection that is only stored has no entry yet
      refine congrArg Finset.card (held_congr fun c' => ?_).symm
      by_cases hcn : c' = s.nextConn
      · subst hcn
        simp [hnone]
      · simp [GoMap.get_set_of_ne _ hcn]
  | appendKey hc _ hkeys => exact iff_of_true (hF.appendKey hc rfl hkeys) trivial
  | @disconnect c addr hc =>
      refine iff_of_true (fun addr' => (hF addr').trans ?_) trivial
      refine congrArg Finset.card (held_congr fun c' => ?_).symm
      by_cases hcc : c' = c
      · subst hcc
        simp [hc]
      · simp [GoMap.get_set_of_ne _ hcc]
  | removeKey hc _ hkeys => exact iff_of_true (hF.removeKey hc rfl hkeys) trivial
  | @sendToControllerManager rand arrays _ hkeys =>
      rw [← perm_searchKeys_iff, List.perm_iff_count]
      refine forall_congr' fun addr' => ?_
      rw [hF addr', ← hkeys]
      rfl

/-- The invariant of a run in which every search leaves the entries as they are. -/
theorem balanced_step (h : s.Consistent ∧ s.Balanced) (hok : s.SearchDrawsLast a)
    (hstep : step grow s a = some s') : s'.Consistent ∧ s'.Balanced :=
  ⟨consistent_step h.1 hstep, (balanced_step_iff h.1 h.2 hstep).mpr hok⟩

/-- A balanced list is that of the clients when nothing is half done. -/
theorem Balanced.soundKeys (hF : s.Balanced) (h : s.Consistent) (hq : s.Quiescent) : s.SoundKeys := by
  have hserving : ∀ {addr c}, c ∈ s.held addr → s.controllers.get addr = some c := by
    intro addr c hc
    rcases mem_held.mp hc with hc | hc
    · exact h.client c addr .serving hc (by simp)
    · cases hq c _ hc
  refine ⟨List.nodup_iff_count_le_one.mpr fun addr => ?_, fun addr => ?_⟩
  · rw [hF addr, Finset.card_le_one]
    intro c hc c' hc'
    exact Option.some.inj ((hserving hc).symm.trans (hserving hc'))
  · rw [← List.count_pos_iff, hF addr, Finset.card_pos]
    constructor
    · rintro ⟨c, hc⟩
      simp [hserving hc]
    · intro hne
      obtain ⟨c, hclient⟩ := Option.ne_none_iff_exists'.mp hne
      obtain ⟨phase, hc, -⟩ := h.conn addr c hclient
      obtain rfl : phase = .serving := hq c _ hc
      exact ⟨c, mem_held.mpr (Or.inl hc)⟩

/-! ## Bringing to an end what is half done -/

/-- Connections and disconnections are brought to their end. -/
def Ends (as : List ControllersAction) : Prop :=
  ∀ a ∈ as, (∃ c, a = .appendKey c) ∨ ∃ c, a = .removeKey c

/-- The list is that of the clients whenever all that is half done has been brought to its end. -/
def EndsSound (grow : ℕ → ℕ → ℕ) (s : CloudControllers) : Prop :=
  ∀ as t, Ends as → runSteps (step grow) s as = some t → t.Quiescent → t.SoundKeys

/-- The connections and disconnections that are half done. -/
def halfDone (s : CloudControllers) : Finset ℕ :=
  s.conns.keys.filter fun c => (s.conns.get c).map ControllerConn.phase ≠ some .serving

theorem mem_halfDone {c : ℕ} :
    c ∈ s.halfDone ↔ ∃ conn, s.conns.get c = some conn ∧ conn.phase ≠ .serving := by
  rw [halfDone, Finset.mem_filter, GoMap.mem_keys]
  constructor
  · rintro ⟨⟨conn, hconn⟩, hphase⟩
    exact ⟨conn, hconn, by simpa [hconn] using hphase⟩
  · rintro ⟨conn, hconn, hphase⟩
    exact ⟨⟨conn, hconn⟩, by simpa [hconn] using hphase⟩

/-- A step that ends what is half done about one connection and leaves the others. -/
theorem card_halfDone_lt {c : ℕ} (hc : c ∈ s.halfDone) (hends : c ∉ s'.halfDone)
    (hothers : ∀ c', c' ≠ c → s'.conns.get c' = s.conns.get c') : s'.halfDone.card < s.halfDone.card := by
  refine Finset.card_lt_card (Finset.ssubset_iff_subset_ne.mpr ⟨fun c' hc' => ?_, ?_⟩)
  · have hne : c' ≠ c := by
      rintro rfl
      exact hends hc'
    rw [mem_halfDone] at hc' ⊢
    rwa [hothers c' hne] at hc'
  · rintro heq
    exact hends (heq ▸ hc)

/-- What is half done can be brought nearer to its end, and a surplus stays. -/
theorem Surplus.progress {addr : String} (h : s.Consistent ∧ s.Surplus addr) (hmore : ¬ s.Quiescent) :
    ∃ a s', ((∃ c, a = .appendKey c) ∨ ∃ c, a = .removeKey c) ∧ step grow s a = some s' ∧
      (s'.Consistent ∧ s'.Surplus addr) ∧ s'.halfDone.card < s.halfDone.card := by
  obtain ⟨hcons, hsurplus⟩ := h
  simp only [Quiescent, not_forall] at hmore
  obtain ⟨c, ⟨k, phase⟩, hc, hphase⟩ := hmore
  have hhalf : c ∈ s.halfDone := mem_halfDone.mpr ⟨⟨k, phase⟩, hc, hphase⟩
  -- both steps are possible, and their effect is that of the transition
  have hdone : ∀ {a s'}, step grow s a = some s' → (∃ c, a = .appendKey c) ∨ (∃ c, a = .removeKey c) →
      c ∉ s'.halfDone → (∀ c', c' ≠ c → s'.conns.get c' = s.conns.get c') → s'.Surplus addr →
      ∃ a s', ((∃ c, a = .appendKey c) ∨ ∃ c, a = .removeKey c) ∧ step grow s a = some s' ∧
        (s'.Consistent ∧ s'.Surplus addr) ∧ s'.halfDone.card < s.halfDone.card :=
    fun hstep ha hends hothers hsur =>
      ⟨_, _, ha, hstep, ⟨consistent_step hcons hstep, hsur⟩, card_halfDone_lt hhalf hends hothers⟩
  cases phase with
  | serving => exact absurd rfl hphase
  | stored =>
      obtain ⟨s', hstep⟩ : ∃ s', step grow s (.appendKey c) = some s' := ⟨_, by simp only [step, hc]; rfl⟩
      cases transition_of_step hcons.valid hstep with
      | appendKey hc' _ hkeys =>
          obtain ⟨rfl, -⟩ := conn_unique hc hc'
          refine hdone hstep (.inl ⟨c, rfl⟩) ?_ (fun c' hne => GoMap.get_set_of_ne _ hne _)
            (hsurplus.appendKey hc rfl hkeys)
          simp [mem_halfDone]
  | deleted =>
      obtain ⟨s', hstep⟩ : ∃ s', step grow s (.removeKey c) = some s' := ⟨_, by simp only [step, hc]; rfl⟩
      cases transition_of_step hcons.valid hstep with
      | removeKey hc' _ hkeys =>
          obtain ⟨rfl, -⟩ := conn_unique hc hc'
          refine hdone hstep (.inr ⟨c, rfl⟩) ?_ (fun c' hne => GoMap.get_delete_of_ne _ hne)
            (hsurplus.removeKey hc rfl hkeys)
          simp [mem_halfDone]

/-- A surplus is a duplicate, or an address without a client, when nothing is half done. -/
theorem Surplus.not_soundKeys {addr : String} (hsurplus : s.Surplus addr) (h : s.Consistent)
    (hq : s.Quiescent) : ¬ s.SoundKeys := by
  rintro ⟨hnodup, hexact⟩
  have hcount := List.nodup_iff_count_le_one.mp hnodup addr
  have hmem : addr ∈ s.keys := List.count_pos_iff.mp (Nat.zero_lt_of_lt hsurplus)
  obtain ⟨c, hclient⟩ := Option.ne_none_iff_exists'.mp ((hexact addr).mp hmem)
  obtain ⟨phase, hc, -⟩ := h.conn addr c hclient
  obtain rfl : phase = .serving := hq c _ hc
  have hheld : 0 < (s.held addr).card := Finset.card_pos.mpr ⟨c, mem_held.mpr (Or.inl hc)⟩
  rw [Surplus] at hsurplus
  omega

theorem Surplus.not_endsSound {addr : String} (hsurplus : s.Surplus addr) (h : s.Consistent) :
    ¬ s.EndsSound grow := by
  intro hends
  obtain ⟨as, t, has, hrun, ⟨ht, hsurplus'⟩, hq⟩ : ∃ as t, Ends as ∧ runSteps (step grow) s as = some t ∧
      (t.Consistent ∧ t.Surplus addr) ∧ t.Quiescent :=
    exists_run_until (f := fun t : CloudControllers => t.halfDone.card)
      (fun h hmore => Surplus.progress h hmore) ⟨h, hsurplus⟩
  exact hsurplus'.not_soundKeys ht hq (hends as t has hrun hq)

/-- A list of the same length that is not a permutation has more of some element. -/
theorem exists_count_lt {l l' : List String} (hlen : l'.length = l.length) (hnot : ¬ l'.Perm l) :
    ∃ x, l.count x < l'.count x := by
  by_contra hnone
  push Not at hnone
  refine hnot (List.Subperm.perm_of_length_le ?_ hlen.ge)
  exact List.subperm_ext_iff.mpr fun x _ => hnone x

/-- A search that changes the entries puts in one too many of some address. -/
theorem not_endsSound_of_search (h : s.Consistent) (hF : s.Balanced) (hbad : ¬ s.SearchDrawsLast a)
    (hstep : step grow s a = some s') : ¬ s'.EndsSound grow := by
  have hcons := consistent_step h hstep
  cases transition_of_step h.valid hstep with
  | sendToControllerManager hvalid hkeys =>
      obtain ⟨addr, hlt⟩ := exists_count_lt (searchKeys_keeps (Nat.le_refl _)).1
        (fun hperm => hbad ((perm_searchKeys_iff s _).mp hperm))
      rw [hF addr, ← hkeys] at hlt
      exact Surplus.not_endsSound hlt hcons
  | _ => exact absurd trivial hbad

/-- A balanced list stays so while what is half done is brought to its end. -/
theorem Balanced.endsSound (hF : s.Balanced) (h : s.Consistent) : s.EndsSound grow := by
  intro as t hends hrun hq
  have hmeet : StepsMeet (step grow) SearchDrawsLast s as := by
    refine stepsMeet_of_forall (fun a ha s => ?_) s
    rcases hends a ha with ⟨c, rfl⟩ | ⟨c, rfl⟩
    · trivial
    · trivial
  obtain ⟨ht, hF'⟩ : t.Consistent ∧ t.Balanced := runSteps_invariant_of_meet
    (I := fun t => t.Consistent ∧ t.Balanced) (fun h hok hstep => balanced_step h hok hstep) ⟨h, hF⟩
    hmeet hrun
  exact hF'.soundKeys ht hq

/-- A search is possible in every state. -/
theorem searchDrawsLast_of_impossible (h : s.Consistent) (hstep : step grow s a = none) :
    s.SearchDrawsLast a := by
  cases a with
  | sendToControllerManager rand =>
      obtain ⟨arrays, hsearch, -, -⟩ := search_eq grow h.valid rand
      simp [step, hsearch] at hstep
  | _ => trivial

/-! ## Searches while nothing is half done -/

/-- No search runs while a disconnection is half done. -/
def SearchesApart (s : CloudControllers) : ControllersAction → Prop
  | .sendToControllerManager _ => ∀ c addr, s.conns.get c ≠ some ⟨addr, .deleted⟩
  | _ => True

theorem Balanced.searchDrawsLast (hF : s.Balanced) (h : s.Consistent) (hapart : s.SearchesApart a) :
    s.SearchDrawsLast a := by
  cases a with
  | sendToControllerManager rand =>
      refine drawsLast_of_live (Nat.le_refl _) fun k hk => ?_
      rw [← List.count_pos_iff, hF k, Finset.card_pos] at hk
      obtain ⟨c, hc⟩ := hk
      rcases mem_held.mp hc with hc | hc
      · simp [h.client c k .serving hc]
      · exact absurd hc (hapart c k)
  | _ => trivial

theorem balanced_init : init.Balanced := by
  intro addr
  rw [Finset.card_eq_zero.mpr]
  · rfl
  · ext c
    simp [mem_held, init]

/-- Along a run from the start: whenever all that is half done has been brought to its end, the list has no
duplicates and is that of the clients, exactly when every address without a client that a search draws is the
last of those left to draw from; and this is so when no search runs while a disconnection is half done. -/
theorem key_list_sound_iff (grow : ℕ → ℕ → ℕ) (as : List ControllersAction) :
    ((∀ bs cs t, bs <+: as → Ends cs → runSteps (step grow) init (bs ++ cs) = some t → t.Quiescent →
      t.SoundKeys) ↔ StepsMeet (step grow) SearchDrawsLast init as) ∧
    (StepsMeet (step grow) SearchesApart init as → StepsMeet (step grow) SearchDrawsLast init as) := by
  refine ⟨?_, ?_⟩
  · have hiff : (∀ bs t, bs <+: as → runSteps (step grow) init bs = some t → t.EndsSound grow) ↔
        StepsMeet (step grow) SearchDrawsLast init as :=
      forall_prefix_iff_of_lost (I := fun t => t.Consistent ∧ t.Balanced)
        (fun h hok hstep => balanced_step h hok hstep)
        (fun h hbad hstep => not_endsSound_of_search h.1 h.2 hbad hstep)
        (fun h hstep => searchDrawsLast_of_impossible h.1 hstep) (fun h => h.2.endsSound h.1)
        ⟨consistent_init, balanced_init⟩
    exact forall_prefix_append_iff.trans hiff
  · exact stepsMeet_of_invariant (I := fun t => t.Consistent ∧ t.Balanced)
      (fun h hok hstep => balanced_step h (h.2.searchDrawsLast h.1 hok) hstep)
      (fun h hok => h.2.searchDrawsLast h.1 hok) ⟨consistent_init, balanced_init⟩

/-- A search runs while a disconnection is half done.  Afterwards nothing is half done, and the list has
a duplicate. -/
theorem search_leaves_duplicate :
    ∃ t, runSteps (step doubling) init (twoManagers ++ [.removeKey 0]) = some t ∧ t.keys = ["y", "y"] ∧
      t.Quiescent ∧ ¬ t.SoundKeys := by
  have hrun : (runSteps (step doubling) init (twoManagers ++ [.removeKey 0])).map
      (fun t => (t.keys, t.conns)) = some (["y", "y"], GoMap.ofList [(1, ⟨"y", .serving⟩)]) := by decide
  obtain ⟨t, ht, heq⟩ := Option.map_eq_some_iff.mp hrun
  obtain ⟨hkeys, hconns⟩ := Prod.mk.inj heq
  refine ⟨t, ht, hkeys, fun c conn hc => ?_, fun hsound => ?_⟩
  · rw [hconns] at hc
    have hmem := GoMap.mem_of_get_ofList hc
    simp only [List.mem_singleton, Prod.mk.injEq] at hmem
    rw [hmem.2]
  · have hnodup := hsound.1
    rw [hkeys] at hnodup
    exact absurd hnodup (by decide)

end CloudControllers

end OteStack
