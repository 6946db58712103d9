/-
# OteStack.Tunnel.Candidates — the addresses an edge tunnel tries before it repeats one.

The loop of `reconnect` in `pkg/tunnel/edgetunnel.go`, while every dial fails, nobody redirects and the
neighbours of the parent stay the same.  Every address that was dialled is on the blacklist, and the next
one is a neighbour that is not, as long as there is such a neighbour: only then may an address come back
from the blacklist.  Neither the order in which the neighbours are looked at nor the time plays a role
until then.
-/
import Mathlib.Data.Finset.Card
import OteStack.Tunnel.EdgeTunnel

namespace OteStack

open OteStack.Lib (GoMap MapOrder)

/-! ## Blacklists -/

namespace CloudBlackList

/-- The addresses on the blacklist after one was added. -/
theorem find_push (b : CloudBlackList) (now : Time) (addr a : String) :
    (b.push now addr).find a = true ↔ b.find a = true ∨ a = addr := by
  unfold push find
  cases haddr : b.addrMap.get addr with
  | some t =>
      constructor
      · exact Or.inl
      · rintro (h | rfl)
        · exact h
        · simp [haddr]
  | none =>
      by_cases ha : a = addr
      · subst a
        simp
      · simp [GoMap.get_set_of_ne _ ha, ha]

end CloudBlackList

namespace EdgeTunnel

/-! ## The next address -/

/-- The addresses of the parent's neighbours. -/
def neighborAddrs : Option (GoMap String String) → Finset String
  | none => ∅
  | some m => m.keys.biUnion fun k => (m.get k).toFinset

theorem mem_neighborAddrs {m : GoMap String String} {addr : String} :
    addr ∈ neighborAddrs (some m) ↔ ∃ k, m.get k = some addr := by
  simp only [neighborAddrs, Finset.mem_biUnion, Option.mem_toFinset, Option.mem_def]
  constructor
  · rintro ⟨k, -, hk⟩
    exact ⟨k, hk⟩
  · rintro ⟨k, hk⟩
    exact ⟨k, GoMap.mem_keys_of_get hk, hk⟩

/-- As long as a neighbour is not on the blacklist, one that is not is chosen. -/
theorem firstNeighbor_fresh {b : CloudBlackList} {parentNeighbors : Option (GoMap String String)}
    (it : MapOrder String) {addr : String} (haddr : addr ∈ neighborAddrs parentNeighbors)
    (hfresh : b.find addr = false) :
    firstNeighbor it b parentNeighbors ∈ neighborAddrs parentNeighbors ∧
      b.find (firstNeighbor it b parentNeighbors) = false := by
  cases parentNeighbors with
  | none => exact absurd haddr (Finset.notMem_empty addr)
  | some m =>
      obtain ⟨k, hk⟩ := mem_neighborAddrs.mp haddr
      have hmem : addr ∈ (it.order m).filterMap m.get :=
        List.mem_filterMap.mpr ⟨k, (it.mem_order m k).mpr (GoMap.mem_keys_of_get hk), hk⟩
      unfold firstNeighbor
      dsimp only
      cases hfind : ((it.order m).filterMap m.get).find? fun addr => !b.find addr with
      | none =>
          have hall := List.find?_eq_none.mp hfind addr hmem
          simp [hfresh] at hall
      | some a =>
          obtain ⟨k', -, hk'⟩ := List.mem_filterMap.mp (List.mem_of_find?_eq_some hfind)
          have ha := List.find?_some hfind
          exact ⟨mem_neighborAddrs.mpr ⟨k', hk'⟩, by simpa using ha⟩

/-! ## Attempts -/

/-- The addresses that `reconnect` dials while every dial fails, for the order of the neighbours and the
time after each of them but the last. -/
def attempts (parentNeighbors : Option (GoMap String String)) :
    List (MapOrder String × Time) → EdgeTunnel → List String
  | [], e => [e.cloudAddr]
  | (it, now) :: rounds, e =>
      e.cloudAddr :: attempts parentNeighbors rounds (e.dialFailed it now parentNeighbors)

@[simp] theorem length_attempts (parentNeighbors : Option (GoMap String String))
    (rounds : List (MapOrder String × Time)) (e : EdgeTunnel) :
    (attempts parentNeighbors rounds e).length = rounds.length + 1 := by
  induction rounds generalizing e with
  | nil => rfl
  | cons round rounds ih => rw [attempts, List.length_cons, ih, List.length_cons]

/-- The addresses `tried` have failed, and another candidate is dialled next.  The candidates are the
neighbours and the initial address, which is the first to be dialled. -/
structure Trying (neighbors : Finset String) (initial : String) (tried : Finset String) (e : EdgeTunnel) :
    Prop where
  originCloudAddr : e.originCloudAddr = ""
  blackList : ∀ a, e.blackList.find a = true ↔ a ∈ tried
  fresh : e.cloudAddr ∉ tried
  candidate : e.cloudAddr ∈ insert initial neighbors
  initial_mem : initial ∈ insert e.cloudAddr tried

section Trying

variable {parentNeighbors : Option (GoMap String String)} {initial : String} {tried : Finset String}
  {e : EdgeTunnel}

/-- After a failure another candidate is dialled, if one is left. -/
theorem Trying.dialFailed (h : Trying (neighborAddrs parentNeighbors) initial tried e)
    (hne : ∀ addr ∈ neighborAddrs parentNeighbors, addr ≠ "") (it : MapOrder String) (now : Time)
    (hleft : (insert e.cloudAddr tried).card < (insert initial (neighborAddrs parentNeighbors)).card) :
    Trying (neighborAddrs parentNeighbors) initial (insert e.cloudAddr tried)
      (e.dialFailed it now parentNeighbors) := by
  have hblack : ∀ a, (e.blackList.push now e.cloudAddr).find a = true ↔ a ∈ insert e.cloudAddr tried := by
    intro a
    rw [CloudBlackList.find_push, h.blackList, Finset.mem_insert, or_comm]
  -- a candidate is left, and it is a neighbour since the initial address was the first to be tried
  obtain ⟨addr, haddr, hnew⟩ : ∃ addr ∈ neighborAddrs parentNeighbors, addr ∉ insert e.cloudAddr tried := by
    obtain ⟨addr, hmem, hnew⟩ := Finset.exists_mem_notMem_of_card_lt_card hleft
    rcases Finset.mem_insert.mp hmem with rfl | haddr
    · exact absurd h.initial_mem hnew
    · exact ⟨addr, haddr, hnew⟩
  have hfresh : (e.blackList.push now e.cloudAddr).find addr = false :=
    Bool.eq_false_iff.mpr fun hfind => hnew ((hblack addr).mp hfind)
  obtain ⟨hchosen, hunlisted⟩ := firstNeighbor_fresh it haddr hfresh
  have hstate : e.dialFailed it now parentNeighbors =
      ⟨firstNeighbor it (e.blackList.push now e.cloudAddr) parentNeighbors, e.originCloudAddr,
        e.blackList.push now e.cloudAddr⟩ := by
    rw [EdgeTunnel.dialFailed, if_neg (by simp [h.originCloudAddr])]
    simp only [chooseParentNeighbor, if_neg (hne _ hchosen)]
  rw [hstate]
  refine ⟨h.originCloudAddr, hblack, ?_, Finset.mem_insert_of_mem hchosen,
    Finset.mem_insert_of_mem h.initial_mem⟩
  intro hmem
  rw [(hblack _).mpr hmem] at hunlisted
  cases hunlisted

/-- As many attempts as there are candidates left are at distinct candidates that were not tried before. -/
theorem Trying.attempts (hne : ∀ addr ∈ neighborAddrs parentNeighbors, addr ≠ "")
    (rounds : List (MapOrder String × Time)) {tried : Finset String} {e : EdgeTunnel}
    (h : Trying (neighborAddrs parentNeighbors) initial tried e)
    (hleft : tried.card + rounds.length < (insert initial (neighborAddrs parentNeighbors)).card) :
    (attempts parentNeighbors rounds e).Nodup ∧
      ∀ a ∈ attempts parentNeighbors rounds e,
        a ∉ tried ∧ a ∈ insert initial (neighborAddrs parentNeighbors) := by
  induction rounds generalizing tried e with
  | nil =>
      refine ⟨List.nodup_singleton _, ?_⟩
      intro a ha
      rw [List.mem_singleton.mp ha]
      exact ⟨h.fresh, h.candidate⟩
  | cons round rounds ih =>
      obtain ⟨it, now⟩ := round
      have hcard : (insert e.cloudAddr tried).card = tried.card + 1 := Finset.card_insert_of_notMem h.fresh
      rw [List.length_cons] at hleft
      have hnext := h.dialFailed hne it now (by omega)
      obtain ⟨hnodup, hrest⟩ := ih hnext (by omega)
      refine ⟨List.nodup_cons.mpr ⟨?_, hnodup⟩, ?_⟩
      · intro hmem
        exact (hrest _ hmem).1 (Finset.mem_insert_self _ _)
      · intro a ha
        rcases List.mem_cons.mp ha with rfl | ha
        · exact ⟨h.fresh, h.candidate⟩
        · obtain ⟨htried, hcandidate⟩ := hrest a ha
          exact ⟨fun hmem => htried (Finset.mem_insert_of_mem hmem), hcandidate⟩

end Trying

/-- While all its dials fail, a tunnel with an empty blacklist dials its address and those of the parent's
neighbours, each of them once, before it dials any of them again. -/
theorem reconnect_tries_every_candidate (parentNeighbors : Option (GoMap String String))
    (hne : ∀ addr ∈ neighborAddrs parentNeighbors, addr ≠ "") (initial : String)
    (rounds : List (MapOrder String × Time))
    (hrounds : rounds.length + 1 = (insert initial (neighborAddrs parentNeighbors)).card) :
    (attempts parentNeighbors rounds (EdgeTunnel.new initial)).Nodup ∧
      (attempts parentNeighbors rounds (EdgeTunnel.new initial)).toFinset =
        insert initial (neighborAddrs parentNeighbors) := by
  have hstart : Trying (neighborAddrs parentNeighbors) initial ∅ (EdgeTunnel.new initial) :=
    ⟨rfl, by simp [EdgeTunnel.new, CloudBlackList.empty, CloudBlackList.find], by simp,
      Finset.mem_insert_self _ _, Finset.mem_insert_self _ _⟩
  obtain ⟨hnodup, hall⟩ := hstart.attempts hne rounds (by rw [Finset.card_empty]; omega)
  refine ⟨hnodup, Finset.eq_of_subset_of_card_le ?_ ?_⟩
  · intro a ha
    exact (hall a (List.mem_toFinset.mp ha)).2
  · rw [List.toFinset_card_of_nodup hnodup, length_attempts, hrounds]

/-- Two neighbours and the configured parent, which is one of them. -/
def twoNeighbors : GoMap String String := GoMap.ofList [("c1", "a:1"), ("c2", "b:1")]

/-- The two addresses are dialled, each of them once. -/
theorem reconnect_tries_twoNeighbors :
    attempts (some twoNeighbors) [(MapOrder.sorted, 0)] (EdgeTunnel.new "b:1") = ["b:1", "a:1"] ∧
      (attempts (some twoNeighbors) [(MapOrder.sorted, 0)] (EdgeTunnel.new "b:1")).toFinset =
        insert "b:1" (neighborAddrs (some twoNeighbors)) :=
  ⟨by decide, (reconnect_tries_every_candidate (some twoNeighbors) (by decide) "b:1"
    [(MapOrder.sorted, 0)] (by decide)).2⟩

end EdgeTunnel

end OteStack
