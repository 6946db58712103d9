/-
# OteStack.LoadBalancer.RoundRobin — which server the load balancer chooses.

`OteStack.LoadBalancer.Backend` says that the search for a backend ends.  This module says where, when
nothing else changes the balancer.  The list of servers has no repetitions, and the balancer stands at one
of its places: `seek c` is the balancer at place `c`, every reachable balancer with servers is at some place
(`InPlace`), and `nextServer` goes on to the next place, round the end of the list.  So the loop of
`getAvailableBackend` looks at the servers in cyclic order and stops at the first that can be used
(`getAvailableBackend_first_usable`).
-/
import Mathlib.Data.List.GetD
import Mathlib.Data.List.Rotate
import OteStack.LoadBalancer.Backend

namespace OteStack.LoadBalancing.LoadBalancer

open OteStack.Lib (GoMap)

/-! ## Balancers -/

/-- The balancers that `setServers` and `nextServer` lead to from the one that `Start` makes.  The health of
the servers may be anything. -/
inductive Reachable : LoadBalancer → Prop where
  | start (status : GoMap String Bool) {original : String} (h : original ≠ "") :
      Reachable ⟨status, original, 0, "", [], []⟩
  | setServers {lb : LoadBalancer} (h : Reachable lb) (sh : Shuffle) (serverAddresses : List String) :
      Reachable (lb.setServers sh serverAddresses).2
  | nextServer {lb : LoadBalancer} (h : Reachable lb) (failedServer : String) :
      Reachable (lb.nextServer failedServer).2
  | healthCheck {lb : LoadBalancer} (h : Reachable lb) (status : GoMap String Bool) :
      Reachable { lb with serverHealthStatus := status }

/-- The balancer at a place of its list. -/
def seek (lb : LoadBalancer) (c : ℕ) : LoadBalancer :=
  { lb with currentServerAddress := lb.randomServers.getD c "", nextServerIndex := c + 1 }

@[simp] theorem seek_randomServers (lb : LoadBalancer) (c : ℕ) :
    (lb.seek c).randomServers = lb.randomServers := rfl

@[simp] theorem seek_current (lb : LoadBalancer) (c : ℕ) :
    (lb.seek c).currentServerAddress = lb.randomServers.getD c "" := rfl

@[simp] theorem seek_getHealthStatus (lb : LoadBalancer) (c : ℕ) (addr : String) :
    (lb.seek c).getHealthStatus addr = lb.getHealthStatus addr := rfl

@[simp] theorem seek_seek (lb : LoadBalancer) (c d : ℕ) : (lb.seek c).seek d = lb.seek d := rfl

/-- The servers are distinct, and if there are any the balancer is at one of them. -/
structure InPlace (lb : LoadBalancer) : Prop where
  original : lb.originalServerAddress ≠ ""
  nodup : lb.randomServers.Nodup
  place : lb.randomServers = [] ∨ ∃ c < lb.randomServers.length, lb = lb.seek c

/-! ## The list of servers -/

section SortServers

variable {search : String}

/-- What the loop of `sortServers` has collected: distinct entries, and whether the one searched for is
among them. -/
theorem foldl_sortRound (hsearch : search ≠ "") : ∀ (input : List String) (acc : List String × Bool),
    acc.1.Nodup → (acc.2 = true ↔ search ∈ acc.1) →
      (input.foldl (sortRound search) acc).1.Nodup ∧
        ((input.foldl (sortRound search) acc).2 = true ↔ search ∈ (input.foldl (sortRound search) acc).1)
  | [], _, hnodup, hfound => ⟨hnodup, hfound⟩
  | entry :: input, acc, hnodup, hfound => by
      rw [List.foldl_cons]
      unfold sortRound
      split
      · exact foldl_sortRound hsearch input acc hnodup hfound
      · rename_i hskip
        have hnew : entry ∉ acc.1 := fun h => hskip (Or.inr (by simpa using h))
        refine foldl_sortRound hsearch input _ ?_ ?_
        · rw [← List.concat_eq_append]
          exact hnodup.concat hnew
        · simp [hfound]

theorem nodup_sortServers (hsearch : search ≠ "") (input : List String) :
    (sortServers input search).1.Nodup := by
  have h := (foldl_sortRound hsearch input ([], false) List.nodup_nil (by simp)).1
  exact ((List.perm_insertionSort (· ≤ ·) _).nodup_iff).mpr h

theorem found_sortServers (hsearch : search ≠ "") (input : List String) :
    (sortServers input search).2 = true ↔ search ∈ (sortServers input search).1 := by
  have h := (foldl_sortRound hsearch input ([], false) List.nodup_nil (by simp)).2
  exact h.trans ((List.perm_insertionSort (· ≤ ·) _).mem_iff).symm

/-- The list that is served has no repetitions: the original server is added only if it is not there. -/
theorem nodup_randomServers (hsearch : search ≠ "") (sh : Shuffle) (input : List String) :
    (if !(sortServers input search).2 then sh.order (sortServers input search).1 ++ [search]
      else sh.order (sortServers input search).1).Nodup := by
  have hperm : (sh.order (sortServers input search).1).Perm (sortServers input search).1 := sh.perm _
  have hshuffled := hperm.nodup_iff.mpr (nodup_sortServers hsearch input)
  split
  · rename_i hmissing
    have hnew : search ∉ sh.order (sortServers input search).1 := by
      intro hmem
      rw [(found_sortServers hsearch input).mpr (hperm.mem_iff.mp hmem)] at hmissing
      cases hmissing
    rw [← List.concat_eq_append]
    exact hshuffled.concat hnew
  · exact hshuffled

end SortServers

/-- What `setServers` does with the sorted list. -/
theorem setServers_cases (lb : LoadBalancer) (sh : Shuffle) (input : List String) :
    let sorted := sortServers input lb.originalServerAddress
    (lb.setServers sh input = (false, lb) ∧ (sorted.1 = [] ∨ sorted.1 = lb.serverAddresses)) ∨
      sorted.1 ≠ [] ∧ sorted.1 ≠ lb.serverAddresses ∧
        ∃ randomServers, randomServers =
            (if !sorted.2 then sh.order sorted.1 ++ [lb.originalServerAddress] else sh.order sorted.1) ∧
          lb.setServers sh input = (true, { lb with
            serverAddresses := sorted.1
            randomServers := randomServers
            currentServerAddress := randomServers.headD ""
            nextServerIndex := 1 }) := by
  intro sorted
  by_cases hnil : sorted.1 = []
  · have hlen : sorted.1.length = 0 := by rw [hnil, List.length_nil]
    refine Or.inl ⟨?_, Or.inl hnil⟩
    rw [LoadBalancer.setServers]
    exact if_pos hlen
  · have hlen : ¬ sorted.1.length = 0 := by simpa using hnil
    by_cases hsame : sorted.1 = lb.serverAddresses
    · refine Or.inl ⟨?_, Or.inr hsame⟩
      rw [LoadBalancer.setServers]
      exact (if_neg hlen).trans (if_pos hsame)
    · refine Or.inr ⟨hnil, hsame, _, rfl, ?_⟩
      rw [LoadBalancer.setServers]
      exact (if_neg hlen).trans (if_neg hsame)

/-- A new list starts at its first server. -/
theorem InPlace.setServers {lb : LoadBalancer} (h : lb.InPlace) (sh : Shuffle)
    (serverAddresses : List String) : (lb.setServers sh serverAddresses).2.InPlace := by
  rcases setServers_cases lb sh serverAddresses with ⟨hkept, -⟩ | ⟨hnil, -, randomServers, hrandom, hset⟩
  · rw [hkept]
    exact h
  · have hnodup : randomServers.Nodup := by
      rw [hrandom]
      exact nodup_randomServers h.original sh serverAddresses
    have hpos : 0 < randomServers.length := by
      rw [hrandom]
      split
      · simp
      · rw [(sh.perm _).length_eq]
        exact List.length_pos_of_ne_nil hnil
    rw [hset]
    refine ⟨h.original, hnodup, Or.inr ⟨0, hpos, ?_⟩⟩
    simp [seek, List.headD_eq_head?_getD, List.head?_eq_getElem?]

/-! ## One place further -/

section Places

variable {lb : LoadBalancer} {c : ℕ}

/-- `nextServer` at the current server goes one place further, round the end of the list. -/
theorem nextServer_seek (hc : c < lb.randomServers.length) :
    ((lb.seek c).nextServer (lb.seek c).currentServerAddress).2 =
      lb.seek ((c + 1) % lb.randomServers.length) := by
  unfold nextServer
  have hne : (lb.seek c).randomServers.length ≠ 0 := by
    rw [seek_randomServers]
    omega
  rw [if_neg hne]
  split
  · rename_i hone
    rw [seek_randomServers] at hone
    have hzero : c = 0 := by omega
    rw [hone, hzero]
  · rw [if_neg (by simp)]
    have hindex : (if (lb.seek c).randomServers.length ≤ (lb.seek c).nextServerIndex then 0
        else (lb.seek c).nextServerIndex) = (c + 1) % lb.randomServers.length := by
      show (if lb.randomServers.length ≤ c + 1 then 0 else c + 1) = _
      split
      · have hlast : c + 1 = lb.randomServers.length := by omega
        rw [hlast, Nat.mod_self]
      · rw [Nat.mod_eq_of_lt (by omega)]
    dsimp only
    rw [hindex]
    rfl

theorem InPlace.nextServer (h : lb.InPlace) (failedServer : String) :
    (lb.nextServer failedServer).2.InPlace := by
  by_cases hfailed : failedServer = lb.currentServerAddress
  · subst hfailed
    rcases h.place with hnil | ⟨c, hc, hlb⟩
    · have hsame : (lb.nextServer lb.currentServerAddress).2 = lb := by
        simp [LoadBalancer.nextServer, hnil]
      rw [hsame]
      exact h
    · have hnext := nextServer_seek hc
      rw [← hlb] at hnext
      rw [hnext]
      exact ⟨h.original, h.nodup, Or.inr ⟨_, Nat.mod_lt _ (Nat.zero_lt_of_lt hc), rfl⟩⟩
  · -- another server than the current one has failed
    have hsame : (lb.nextServer failedServer).2 = lb := by
      unfold LoadBalancer.nextServer
      split
      · rfl
      · split
        · rfl
        · rfl
    rw [hsame]
    exact h

theorem Reachable.inPlace (h : Reachable lb) : lb.InPlace := by
  induction h with
  | start status horiginal => exact ⟨horiginal, List.nodup_nil, Or.inl rfl⟩
  | setServers _ sh serverAddresses ih => exact ih.setServers sh serverAddresses
  | nextServer _ failedServer ih => exact ih.nextServer failedServer
  | healthCheck _ status ih =>
      refine ⟨ih.original, ih.nodup, ?_⟩
      rcases ih.place with hnil | ⟨c, hc, hlb⟩
      · exact Or.inl hnil
      · exact Or.inr ⟨c, hc,
          congrArg (fun lb : LoadBalancer => { lb with serverHealthStatus := status }) hlb⟩

end Places

/-! ## The search -/

/-- The server is healthy and can be dialled. -/
def usable (dial : String → Bool) (lb : LoadBalancer) (server : String) : Bool :=
  lb.getHealthStatus server && dial server

/-- The place of the balancer in its list. -/
def cursor (lb : LoadBalancer) : ℕ := lb.randomServers.idxOf lb.currentServerAddress

/-- The place after that of a server, round the end of the list. -/
def placeAfter (lb : LoadBalancer) (server : String) : ℕ :=
  (lb.randomServers.idxOf server + 1) % lb.randomServers.length

/-- What `getAvailableBackend` answers, given the first server it can use. -/
def answer (lb : LoadBalancer) : Option String → Except String String × LoadBalancer
  | some server => (.ok server, lb.seek (lb.placeAfter server))
  | none => (.error "all servers failed", lb)

section Search

variable {lb : LoadBalancer} {c w : ℕ} {dial : String → Bool}

/-- The servers from a place on begin with the one there. -/
theorem rotate_eq_cons {l : List String} {c : ℕ} (hc : c < l.length) :
    l.rotate c = l.getD c "" :: (l.drop (c + 1) ++ l.take c) := by
  rw [List.rotate_eq_drop_append_take (Nat.le_of_lt hc), List.drop_eq_getElem_cons hc,
    List.getD_eq_getElem l "" hc, List.cons_append]

/-- The servers from a place on are the one there and those from the next place on. -/
theorem take_rotate_succ {l : List String} {c m : ℕ} (hc : c < l.length) (hm : m < l.length) :
    (l.rotate c).take (m + 1) = l.getD c "" :: (l.rotate ((c + 1) % l.length)).take m := by
  have hnext : l.rotate ((c + 1) % l.length) = (l.drop (c + 1) ++ l.take c) ++ [l.getD c ""] := by
    rw [List.rotate_mod, ← List.rotate_rotate, rotate_eq_cons hc, List.rotate_cons_succ, List.rotate_zero]
  have hlen : m ≤ (l.drop (c + 1) ++ l.take c).length := by
    simp only [List.length_append, List.length_drop, List.length_take]
    omega
  rw [rotate_eq_cons hc, hnext, List.take_succ_cons, List.take_append_of_le_length hlen]

theorem idxOf_getD (hnodup : lb.randomServers.Nodup) (hc : c < lb.randomServers.length) :
    lb.randomServers.idxOf (lb.randomServers.getD c "") = c := by
  rw [List.getD_eq_getElem _ _ hc]
  exact hnodup.idxOf_getElem c hc

/-- One round at a place, before the servers are counted out. -/
theorem round_seek (hc : c < lb.randomServers.length) {startIndex : BitVec w}
    (hi : startIndex ≠ BitVec.ofNat w lb.randomServers.length) :
    round dial (lb.seek c) startIndex =
      if usable dial lb (lb.randomServers.getD c "") then
        .returned (.ok (lb.randomServers.getD c "")) (lb.seek ((c + 1) % lb.randomServers.length))
      else .again (startIndex + 1) (lb.seek ((c + 1) % lb.randomServers.length)) := by
  have hnext := nextServer_seek hc
  have hskip : (lb.seek c).skip (startIndex + 1) (lb.seek c).currentServerAddress =
      .again (startIndex + 1) (lb.seek ((c + 1) % lb.randomServers.length)) := by
    have hne : (lb.seek c).randomServers ≠ [] := by
      rw [seek_randomServers]
      exact List.ne_nil_of_length_pos (Nat.zero_lt_of_lt hc)
    obtain ⟨server, hserver⟩ := nextServer_eq_ok hne (lb.seek c).currentServerAddress
    unfold skip
    split
    · rename_i herr
      rw [herr] at hserver
      cases hserver
    · rename_i hok
      rw [hok] at hnext
      exact congrArg (Round.again (startIndex + 1)) hnext
  unfold round
  rw [seek_randomServers, if_neg hi]
  dsimp only
  rw [hskip, hnext, usable]
  simp only [seek_current, seek_getHealthStatus]
  by_cases hhealthy : lb.getHealthStatus (lb.randomServers.getD c "") = true
  · simp only [hhealthy, Bool.not_true, Bool.false_eq_true, if_false, Bool.true_and]
    rfl
  · simp only [hhealthy, Bool.not_false, if_true, Bool.false_and, Bool.false_eq_true, if_false]

variable (dial) in
/-- The loop with `m` rounds left looks at the next `m` servers. -/
theorem loop_seek (hnodup : lb.randomServers.Nodup) (hlen : lb.randomServers.length < 2 ^ w) {m fuel : ℕ}
    (hc : c < lb.randomServers.length) (hm : m ≤ lb.randomServers.length) (hfuel : m < fuel) :
    loop dial fuel [] (lb.seek c) (BitVec.ofNat w (lb.randomServers.length - m)) =
      some ((lb.seek ((c + m) % lb.randomServers.length)).answer
        (((lb.randomServers.rotate c).take m).find? (usable dial lb))) := by
  -- induction on the rounds that are left
  induction m generalizing c fuel with
  | zero =>
      obtain ⟨fuel, rfl⟩ := Nat.exists_eq_succ_of_ne_zero (Nat.ne_of_gt hfuel)
      simp [loop, updates, round, answer, Nat.mod_eq_of_lt hc]
  | succ m ih =>
      obtain ⟨fuel, rfl⟩ := Nat.exists_eq_succ_of_ne_zero (Nat.ne_of_gt (Nat.zero_lt_of_lt hfuel))
      have hi : BitVec.ofNat w (lb.randomServers.length - (m + 1)) ≠
          BitVec.ofNat w lb.randomServers.length := by
        intro heq
        have hnat := congrArg BitVec.toNat heq
        rw [BitVec.toNat_ofNat, BitVec.toNat_ofNat, Nat.mod_eq_of_lt hlen,
          Nat.mod_eq_of_lt (Nat.lt_of_le_of_lt (Nat.sub_le _ _) hlen)] at hnat
        omega
      have hcount : BitVec.ofNat w (lb.randomServers.length - (m + 1)) + 1 =
          BitVec.ofNat w (lb.randomServers.length - m) := by
        have hsucc : lb.randomServers.length - m = lb.randomServers.length - (m + 1) + 1 := by omega
        rw [hsucc, BitVec.ofNat_add]
        rfl
      have hplace : (c + 1) % lb.randomServers.length < lb.randomServers.length :=
        Nat.mod_lt _ (Nat.zero_lt_of_lt hc)
      rw [loop, List.headD_nil, updates, List.foldl_nil, round_seek hc hi, take_rotate_succ hc (by omega),
        List.find?_cons]
      cases hu : usable dial lb (lb.randomServers.getD c "") with
      | true =>
          simp only [if_true, answer, placeAfter, seek_randomServers, seek_seek, idxOf_getD hnodup hc]
      | false =>
          have hleft : m < fuel := Nat.lt_of_succ_lt_succ hfuel
          have hrest := ih hplace (Nat.le_of_succ_le hm) hleft
          have hend : ((c + 1) % lb.randomServers.length + m) % lb.randomServers.length =
              (c + (m + 1)) % lb.randomServers.length := by
            rw [Nat.mod_add_mod, Nat.add_assoc, Nat.add_comm 1 m]
          simp only [Bool.false_eq_true, if_false]
          rw [hcount, List.tail_nil, hrest, hend]

/-- The list of a balancer, from its place on. -/
theorem InPlace.cursor_eq (h : lb.InPlace) (hc : c < lb.randomServers.length) (hlb : lb = lb.seek c) :
    lb.cursor = c := by
  have hcurrent : lb.currentServerAddress = lb.randomServers.getD c "" :=
    congrArg LoadBalancer.currentServerAddress hlb
  rw [cursor, hcurrent]
  exact idxOf_getD h.nodup hc

/-- The search from where a balancer is. -/
theorem InPlace.getAvailableBackend (h : lb.InPlace) (dial : String → Bool)
    (hlen : lb.randomServers.length < 2 ^ w) {fuel : ℕ} (hfuel : lb.randomServers.length < fuel) :
    getAvailableBackend w dial fuel [] lb =
      some (lb.answer ((lb.randomServers.rotate lb.cursor).find? (usable dial lb))) := by
  rcases h.place with hnil | ⟨c, hc, hlb⟩
  · obtain ⟨fuel, rfl⟩ := Nat.exists_eq_succ_of_ne_zero (Nat.ne_of_gt (Nat.zero_lt_of_lt hfuel))
    simp [LoadBalancer.getAvailableBackend, loop, updates, round, hnil, answer]
  · have hloop := loop_seek dial h.nodup hlen hc (Nat.le_refl _) hfuel
    rw [Nat.sub_self, Nat.add_mod_right, Nat.mod_eq_of_lt hc, ← hlb,
      List.take_of_length_le (Nat.le_of_eq (List.length_rotate _ _))] at hloop
    rw [h.cursor_eq hc hlb]
    exact hloop

end Search

/-! ## One call, and as many calls as there are servers -/

/-- `calls` calls of `getAvailableBackend` one after the other, and the servers they return. -/
def backends (w : ℕ) (dial : String → Bool) (fuel : ℕ) : ℕ → LoadBalancer → Option (List String)
  | 0, _ => some []
  | calls + 1, lb =>
      match getAvailableBackend w dial fuel [] lb with
      | some (.ok server, lb') => (backends w dial fuel calls lb').map (server :: ·)
      | _ => none

/-- Every call returns the current server, when all of them can be used. -/
theorem backends_seek {lb : LoadBalancer} {w c : ℕ} {dial : String → Bool} (h : lb.InPlace)
    (hlen : lb.randomServers.length < 2 ^ w) {fuel : ℕ} (hfuel : lb.randomServers.length < fuel)
    (hall : ∀ server ∈ lb.randomServers, usable dial lb server = true) {calls : ℕ}
    (hc : c < lb.randomServers.length) (hcalls : calls ≤ lb.randomServers.length) :
    backends w dial fuel calls (lb.seek c) = some ((lb.randomServers.rotate c).take calls) := by
  induction calls generalizing c with
  | zero => rfl
  | succ calls ih =>
      have hplace : (lb.seek c).InPlace := ⟨h.original, h.nodup, Or.inr ⟨c, hc, rfl⟩⟩
      have hnext : (c + 1) % lb.randomServers.length < lb.randomServers.length :=
        Nat.mod_lt _ (Nat.zero_lt_of_lt hc)
      have hfirst : (lb.randomServers.rotate c).find? (usable dial (lb.seek c)) =
          some (lb.randomServers.getD c "") := by
        have hmem : lb.randomServers.getD c "" ∈ lb.randomServers := by
          rw [List.getD_eq_getElem _ _ hc]
          exact List.getElem_mem hc
        rw [rotate_eq_cons hc]
        exact List.find?_cons_of_pos (hall _ hmem)
      rw [backends, hplace.getAvailableBackend dial hlen hfuel, hplace.cursor_eq hc rfl,
        seek_randomServers, hfirst, take_rotate_succ hc hcalls]
      simp only [answer, placeAfter, seek_randomServers, seek_seek, idxOf_getD h.nodup hc]
      rw [ih hnext (Nat.le_of_succ_le hcalls), Option.map_some]

/-- Without concurrent updates `getAvailableBackend` returns the first server, in the cyclic order of the
list from the current one on, that is healthy and can be dialled, and leaves the balancer at the server
after it; if there is none it fails and leaves the balancer as it was.  So when all servers are healthy and
can be dialled, as many calls as there are servers return each of them once.  (`len` is a Go `int`.) -/
theorem getAvailableBackend_first_usable (w : ℕ) (dial : String → Bool) {lb : LoadBalancer}
    (h : Reachable lb) (hlen : lb.randomServers.length < 2 ^ w) {fuel : ℕ}
    (hfuel : lb.randomServers.length < fuel) :
    getAvailableBackend w dial fuel [] lb =
        some (lb.answer ((lb.randomServers.rotate lb.cursor).find? (usable dial lb))) ∧
      ((∀ server ∈ lb.randomServers, usable dial lb server = true) →
        ∃ servers, backends w dial fuel lb.randomServers.length lb = some servers ∧
          servers.Perm lb.randomServers) := by
  refine ⟨h.inPlace.getAvailableBackend dial hlen hfuel, ?_⟩
  intro hall
  rcases h.inPlace.place with hnil | ⟨c, hc, hlb⟩
  · refine ⟨[], ?_, ?_⟩
    · rw [hnil]
      rfl
    · rw [hnil]
  · have hcalls := backends_seek h.inPlace hlen hfuel hall hc (Nat.le_refl _)
    rw [← hlb, List.take_of_length_le (Nat.le_of_eq (List.length_rotate _ _))] at hcalls
    exact ⟨_, hcalls, List.rotate_perm _ _⟩

/-- A balancer with the healthy servers `a` and `b`. -/
def twoHealthy : LoadBalancer :=
  ⟨GoMap.ofList [("a", true), ("b", true)], "a", 1, "a", ["a", "b"], ["a", "b"]⟩

theorem reachable_twoHealthy : Reachable twoHealthy :=
  .setServers (.start (GoMap.ofList [("a", true), ("b", true)]) (show "a" ≠ "" by decide)) Shuffle.none
    ["a", "b"]

/-- Two calls return both servers. -/
theorem backends_twoHealthy :
    ∃ servers, backends 64 (fun _ => true) 3 2 twoHealthy = some servers ∧ servers.Perm ["a", "b"] :=
  (getAvailableBackend_first_usable 64 (fun _ => true) reachable_twoHealthy (by decide) (by decide)).2
    (by decide)

/-- A server may be healthy and still not be dialled: two calls then return the other one twice. -/
theorem backends_undialled :
    Reachable twoHealthy ∧ (∀ server ∈ twoHealthy.randomServers, twoHealthy.getHealthStatus server = true) ∧
      backends 64 (fun server => server == "a") 3 2 twoHealthy = some ["a", "a"] :=
  ⟨reachable_twoHealthy, by decide, by decide⟩

end OteStack.LoadBalancing.LoadBalancer
