/-
# OteStack.LoadBalancer.Backend — how the load balancer of an edge hub chooses a server.

`pkg/loadbalancer`.  The balancer keeps a shuffled list of servers and the one to use next.
`getAvailableBackend` goes round the list until it finds a server that is healthy and can be dialled, and
gives up when it has made as many rounds as there are servers.  Another goroutine may replace the list in
the meantime.

The test for giving up is an equality.  A list that shrinks below the number of rounds made is therefore
never counted out, and when none of its servers can be used the loop goes on until the counter, a Go `int`,
has wrapped around.  So the function always returns (`backend_selection_ends`), but `shrunk_list_wraps`
says after how many rounds.  The width of an `int` is a parameter: it depends on the platform.
-/
import Mathlib.Data.List.Sort
import Mathlib.Data.String.Basic
import OteStack.Lib.GoMap

namespace OteStack.LoadBalancing

open OteStack.Lib (GoMap)

/-! ## The list of servers -/

/-- A way to resolve the choice of `rand.Shuffle`. -/
structure Shuffle where
  order : List String → List String
  perm : ∀ l, (order l).Perm l

/-- The shuffle that leaves a list as it is. -/
def Shuffle.none : Shuffle := ⟨id, fun l => List.Perm.refl l⟩

/-- The part of a load balancer that the choice of a server reads and writes. -/
structure LoadBalancer where
  serverHealthStatus : GoMap String Bool
  originalServerAddress : String
  nextServerIndex : ℕ
  currentServerAddress : String
  serverAddresses : List String
  randomServers : List String

/-- One round of the loop of `sortServers`: empty and repeated entries are skipped. -/
def sortRound (search : String) (acc : List String × Bool) (entry : String) : List String × Bool :=
  if entry = "" ∨ acc.1.contains entry then acc
  else (acc.1 ++ [entry], acc.2 || search == entry)

/-- Go's `sortServers`: the sorted list, and whether the address searched for is in it. -/
def sortServers (input : List String) (search : String) : List String × Bool :=
  let (result, found) := input.foldl (sortRound search) ([], false)
  (result.insertionSort (· ≤ ·), found)

namespace LoadBalancer

/-- Go's `getHealthStatus`. -/
def getHealthStatus (lb : LoadBalancer) (addr : String) : Bool :=
  (lb.serverHealthStatus.get addr).getD false

/-- Go's `setServers`: whether the list changed, and the balancer afterwards.  The new list is not empty,
so its first element is there. -/
def setServers (sh : Shuffle) (lb : LoadBalancer) (serverAddresses : List String) :
    Bool × LoadBalancer :=
  let (serverAddresses, hasOriginalServer) := sortServers serverAddresses lb.originalServerAddress
  if serverAddresses.length = 0 then (false, lb)
  else if serverAddresses = lb.serverAddresses then (false, lb)
  else
    let shuffled := sh.order serverAddresses
    let randomServers :=
      if !hasOriginalServer then shuffled ++ [lb.originalServerAddress] else shuffled
    (true, { lb with
      serverAddresses := serverAddresses
      randomServers := randomServers
      currentServerAddress := randomServers.headD ""
      nextServerIndex := 1 })

/-- Go's `nextServer`: the address returned, or the error, and the balancer afterwards.  Another server is
taken only if the one that failed is still the current one. -/
def nextServer (lb : LoadBalancer) (failedServer : String) : Except String String × LoadBalancer :=
  if lb.randomServers.length = 0 then (.error "No servers in load balancer proxy list", lb)
  else if lb.randomServers.length = 1 then (.ok lb.currentServerAddress, lb)
  else if failedServer ≠ lb.currentServerAddress then (.ok lb.currentServerAddress, lb)
  else
    let index := if lb.randomServers.length ≤ lb.nextServerIndex then 0 else lb.nextServerIndex
    let server := lb.randomServers.getD index ""
    (.ok server, { lb with currentServerAddress := server, nextServerIndex := index + 1 })

/-- The list and the health of the servers stay as they are. -/
theorem nextServer_frame (lb : LoadBalancer) (failedServer : String) :
    (lb.nextServer failedServer).2.randomServers = lb.randomServers ∧
      (lb.nextServer failedServer).2.serverHealthStatus = lb.serverHealthStatus := by
  unfold nextServer
  split
  · exact ⟨rfl, rfl⟩
  · split
    · exact ⟨rfl, rfl⟩
    · split <;> exact ⟨rfl, rfl⟩

theorem nextServer_eq_ok {lb : LoadBalancer} (h : lb.randomServers ≠ []) (failedServer : String) :
    ∃ server, (lb.nextServer failedServer).1 = .ok server := by
  unfold nextServer
  rw [if_neg (by simpa using h)]
  split
  · exact ⟨_, rfl⟩
  · split <;> exact ⟨_, rfl⟩

/-! ## The loop -/

/-- How a round of the loop of `getAvailableBackend` ends: with a result, or with the counter and the
balancer for the next round. -/
inductive Round (w : ℕ) where
  | returned (result : Except String String) (lb : LoadBalancer)
  | again (startIndex : BitVec w) (lb : LoadBalancer)

variable {w : ℕ} (dial : String → Bool)

/-- The rest of a round in which the current server cannot be used. -/
def skip (lb : LoadBalancer) (startIndex : BitVec w) (targetServer : String) : Round w :=
  match lb.nextServer targetServer with
  | (.error err, lb) => .returned (.error err) lb
  | (.ok _, lb) => .again startIndex lb

/-- One round of the loop of `getAvailableBackend`, for what dialling each server gives. -/
def round (lb : LoadBalancer) (startIndex : BitVec w) : Round w :=
  if startIndex = BitVec.ofNat w lb.randomServers.length then
    .returned (.error "all servers failed") lb
  else
    let startIndex := startIndex + 1
    let targetServer := lb.currentServerAddress
    if !lb.getHealthStatus targetServer then lb.skip startIndex targetServer
    else if dial targetServer then .returned (.ok targetServer) (lb.nextServer targetServer).2
    else lb.skip startIndex targetServer

/-- The updates that take effect between two rounds, in turn. -/
def updates (lb : LoadBalancer) (us : List (Shuffle × List String)) : LoadBalancer :=
  us.foldl (fun lb u => (lb.setServers u.1 u.2).2) lb

/-- The loop, for the updates before each of the first rounds.  `none` is a loop that has not returned
after `fuel` rounds. -/
def loop : ℕ → List (List (Shuffle × List String)) → LoadBalancer → BitVec w →
    Option (Except String String × LoadBalancer)
  | 0, _, _, _ => none
  | fuel + 1, us, lb, startIndex =>
      match round dial (lb.updates (us.headD [])) startIndex with
      | .returned result lb => some (result, lb)
      | .again startIndex lb => loop fuel us.tail lb startIndex

variable (w) in
/-- Go's `getAvailableBackend`. -/
def getAvailableBackend (fuel : ℕ) (us : List (List (Shuffle × List String))) (lb : LoadBalancer) :
    Option (Except String String × LoadBalancer) :=
  loop dial fuel us lb (0 : BitVec w)

/-! ## The counter -/

variable {dial} {lb lb' : LoadBalancer} {startIndex next : BitVec w}

/-- A round that is not the last counts one up and leaves the list as it is. -/
theorem of_round_again (h : round dial lb startIndex = .again next lb') :
    startIndex ≠ BitVec.ofNat w lb.randomServers.length ∧ next = startIndex + 1 ∧
      lb'.randomServers = lb.randomServers ∧ lb'.serverHealthStatus = lb.serverHealthStatus := by
  have hskip : lb.skip (startIndex + 1) lb.currentServerAddress = .again next lb' →
      next = startIndex + 1 ∧ lb'.randomServers = lb.randomServers ∧
        lb'.serverHealthStatus = lb.serverHealthStatus := by
    intro hs
    unfold skip at hs
    split at hs
    · cases hs
    · rename_i hnext
      cases hs
      have hframe := nextServer_frame lb lb.currentServerAddress
      rw [hnext] at hframe
      exact ⟨rfl, hframe⟩
  unfold round at h
  split at h
  · cases h
  · refine ⟨‹_›, ?_⟩
    dsimp only at h
    split at h
    · exact hskip h
    · split at h
      · cases h
      · exact hskip h

/-- How many rounds the counter is away from a length. -/
def distance (lb : LoadBalancer) (startIndex : BitVec w) : ℕ :=
  (BitVec.ofNat w lb.randomServers.length - startIndex).toNat

theorem distance_eq_zero_iff :
    lb.distance startIndex = 0 ↔ startIndex = BitVec.ofNat w lb.randomServers.length := by
  unfold distance
  constructor
  · intro h
    have hzero : BitVec.ofNat w lb.randomServers.length - startIndex = 0 := BitVec.eq_of_toNat_eq h
    exact (BitVec.sub_eq_iff_eq_add.mp hzero ▸ BitVec.zero_add startIndex).symm
  · intro h
    rw [h, BitVec.sub_self]
    rfl

/-- A value that is not reached yet is one nearer to the next one, wrapped around or not. -/
theorem toNat_sub_succ {x i : BitVec w} (hpos : 0 < (x - i).toNat) :
    (x - (i + 1)).toNat + 1 = (x - i).toNat := by
  have hw : 0 < w := by
    rcases Nat.eq_zero_or_pos w with rfl | hw
    · exact absurd hpos (by simp [Nat.mod_one])
    · exact hw
  have hone : (1 : BitVec w).toNat = 1 := BitVec.toNat_one hw
  have hle : 1 ≤ x - i := by
    rw [BitVec.le_def, hone]
    exact hpos
  rw [← BitVec.sub_sub, BitVec.toNat_sub_of_le hle, hone]
  exact Nat.sub_add_cancel hpos

/-- Every round that is not the last brings the counter one nearer to the length. -/
theorem distance_again (h : round dial lb startIndex = .again next lb') :
    lb'.distance next + 1 = lb.distance startIndex := by
  obtain ⟨hne, rfl, hlist, -⟩ := of_round_again h
  have hpos : 0 < lb.distance startIndex :=
    Nat.pos_of_ne_zero fun hzero => hne (distance_eq_zero_iff.mp hzero)
  unfold distance at hpos ⊢
  rw [hlist]
  exact toNat_sub_succ hpos

/-- When the list does not change any more, the loop returns at the latest when the counter has come to
its length. -/
theorem loop_fixed_returns (lb : LoadBalancer) (startIndex : BitVec w) :
    ∃ r, loop dial (lb.distance startIndex + 1) [] lb startIndex = some r := by
  -- induction on the distance, which a round makes smaller
  induction hd : lb.distance startIndex generalizing lb startIndex with
  | zero =>
      refine ⟨(.error "all servers failed", lb), ?_⟩
      have heq := distance_eq_zero_iff.mp hd
      simp [loop, updates, round, ← heq]
  | succ n ih =>
      rw [loop]
      cases hround : round dial (lb.updates (([] : List (List (Shuffle × List String))).headD []))
          startIndex with
      | returned result lb' => exact ⟨_, rfl⟩
      | again next lb' =>
          have hnext := distance_again hround
          exact ih lb' next (Nat.succ.inj (hnext.trans hd))

/-- The loop returns after the rounds with updates and one turn of the counter. -/
theorem loop_returns (us : List (List (Shuffle × List String))) (lb : LoadBalancer)
    (startIndex : BitVec w) :
    ∃ fuel ≤ us.length + 2 ^ w, ∃ r, loop dial fuel us lb startIndex = some r := by
  induction us generalizing lb startIndex with
  | nil =>
      refine ⟨lb.distance startIndex + 1, ?_, loop_fixed_returns lb startIndex⟩
      rw [List.length_nil, Nat.zero_add]
      exact BitVec.isLt _
  | cons u us ih =>
      cases hround : round dial (lb.updates u) startIndex with
      | returned result lb' =>
          refine ⟨1, ?_, (result, lb'), by simp [loop, hround]⟩
          exact Nat.one_le_two_pow.trans (Nat.le_add_left _ _)
      | again next lb' =>
          obtain ⟨fuel, hfuel, r, hr⟩ := ih lb' next
          refine ⟨fuel + 1, ?_, r, by simpa [loop, hround] using hr⟩
          rw [List.length_cons]
          omega

/-- `getAvailableBackend` returns, whatever updates take effect between its rounds: at the latest when,
after the last of them, the counter has once gone round all its values. -/
theorem backend_selection_ends (w : ℕ) (dial : String → Bool) (us : List (List (Shuffle × List String)))
    (lb : LoadBalancer) :
    ∃ fuel ≤ us.length + 2 ^ w, (getAvailableBackend w dial fuel us lb).isSome = true := by
  obtain ⟨fuel, hfuel, r, hr⟩ := loop_returns us lb (0 : BitVec w)
  exact ⟨fuel, hfuel, Option.isSome_iff_exists.mpr ⟨r, hr⟩⟩

/-! ## A list that has become too short -/

/-- No server is both healthy and there to be dialled. -/
def Unusable (dial : String → Bool) (lb : LoadBalancer) : Prop :=
  ∀ addr, lb.getHealthStatus addr = true → dial addr = false

theorem round_unusable (h : Unusable dial lb) (hne : lb.randomServers ≠ [])
    (hi : startIndex ≠ BitVec.ofNat w lb.randomServers.length) :
    ∃ lb', round dial lb startIndex = .again (startIndex + 1) lb' := by
  have hskip : ∃ lb', lb.skip (startIndex + 1) lb.currentServerAddress = .again (startIndex + 1) lb' := by
    obtain ⟨server, hserver⟩ := nextServer_eq_ok hne lb.currentServerAddress
    refine ⟨(lb.nextServer lb.currentServerAddress).2, ?_⟩
    unfold skip
    split
    · rename_i hnext
      rw [hnext] at hserver
      cases hserver
    · rename_i hnext
      rw [hnext]
  unfold round
  rw [if_neg hi]
  cases hh : lb.getHealthStatus lb.currentServerAddress with
  | false => simpa [hh] using hskip
  | true => simpa [hh, h _ hh] using hskip

theorem Unusable.congr (h : Unusable dial lb)
    (hstatus : lb'.serverHealthStatus = lb.serverHealthStatus) : Unusable dial lb' := by
  intro addr haddr
  rw [getHealthStatus, hstatus] at haddr
  exact h addr haddr

/-- Without a server that can be used, the loop makes exactly the rounds up to the length of the list. -/
theorem loop_unusable_iff (h : Unusable dial lb) (hne : lb.randomServers ≠ []) (fuel : ℕ) :
    (loop dial fuel [] lb startIndex).isSome = true ↔ lb.distance startIndex < fuel := by
  induction fuel generalizing lb startIndex with
  | zero => simp [loop]
  | succ fuel ih =>
      by_cases hi : startIndex = BitVec.ofNat w lb.randomServers.length
      · have hzero := distance_eq_zero_iff.mpr hi
        simp [loop, updates, round, ← hi, hzero]
      · obtain ⟨lb', hround⟩ := round_unusable h hne hi
        obtain ⟨-, -, hlist, hstatus⟩ := of_round_again hround
        have hnext := distance_again hround
        have hloop : loop dial (fuel + 1) [] lb startIndex = loop dial fuel [] lb' (startIndex + 1) := by
          simp [loop, updates, hround]
        rw [hloop, ih (h.congr hstatus) (hlist ▸ hne), ← hnext]
        omega

/-- A counter that is past the length has to wrap around to come to it. -/
theorem distance_past (hlen : lb.randomServers.length < startIndex.toNat) :
    lb.distance startIndex = 2 ^ w - startIndex.toNat + lb.randomServers.length := by
  have hlt : startIndex.toNat < 2 ^ w := startIndex.isLt
  unfold distance
  rw [BitVec.toNat_sub, BitVec.toNat_ofNat, Nat.mod_eq_of_lt (hlen.trans hlt), Nat.mod_eq_of_lt]
  omega

/-- When an update has left fewer servers than rounds were made, and none of them can be used, the loop
returns only after the counter has wrapped around. -/
theorem shrunk_list_wraps (h : Unusable dial lb) (hne : lb.randomServers ≠ [])
    (hlen : lb.randomServers.length < startIndex.toNat) (fuel : ℕ) :
    (loop dial fuel [] lb startIndex).isSome = true ↔
      2 ^ w - startIndex.toNat + lb.randomServers.length < fuel := by
  rw [loop_unusable_iff h hne, distance_past hlen]

/-- Three servers of which none is healthy. -/
def threeServers : LoadBalancer := ⟨∅, "a", 1, "a", ["a", "b", "c"], ["a", "b", "c"]⟩

/-- After two rounds the list shrinks to one server: with an `int` of 64 bits the search for a backend takes
more than `2 ^ 64` rounds. -/
theorem shrink_after_two_rounds (fuel : ℕ) :
    (getAvailableBackend 64 (fun _ => false) fuel [[], [], [(Shuffle.none, ["a"])]] threeServers).isSome =
        true ↔ 2 ^ 64 + 1 < fuel := by
  have hfirst : ∀ n, getAvailableBackend 64 (fun _ => false) (n + 3) [[], [], [(Shuffle.none, ["a"])]]
      threeServers = loop (fun _ => false) n [] ⟨∅, "a", 1, "a", ["a"], ["a"]⟩ (3 : BitVec 64) :=
    fun n => rfl
  match fuel with
  | 0 => exact iff_of_false (by decide) (by decide)
  | 1 => exact iff_of_false (by decide) (by decide)
  | 2 => exact iff_of_false (by decide) (by decide)
  | n + 3 =>
      rw [hfirst, shrunk_list_wraps (fun _ _ => rfl) (by simp) (by decide)]
      show 2 ^ 64 - 3 + 1 < n ↔ 2 ^ 64 + 1 < n + 3
      omega

end LoadBalancer

end OteStack.LoadBalancing
