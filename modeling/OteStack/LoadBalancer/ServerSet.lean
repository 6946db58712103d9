/-
# OteStack.LoadBalancer.ServerSet — what `setServers` makes of a list of addresses.

`setServers` of `pkg/loadbalancer/util.go` is given the addresses of an endpoint in whatever order and with
whatever repetitions.  It drops the empty ones and the repetitions and sorts the rest, so what it compares
with the addresses it has, and what it keeps, depends on the set of them only (`sortServers_congr`).

The addresses of a reachable balancer are the sorted list of a set (`Reachable.pairwise`).  So the comparison
of lists in `setServers` is a comparison of sets, and `setServers_set` says what it does in terms of sets.
-/
import OteStack.LoadBalancer.RoundRobin

namespace OteStack.LoadBalancing

/-! ## The set of addresses -/

/-- The addresses of a list, without the empty one. -/
def addressSet (input : List String) : Finset String := (input.filter (· ≠ "")).toFinset

theorem mem_addressSet {input : List String} {a : String} : a ∈ addressSet input ↔ a ∈ input ∧ a ≠ "" := by
  simp [addressSet]

namespace LoadBalancer

section SortServers

variable {search : String}

/-- The loop of `sortServers` collects the entries that are not empty. -/
theorem mem_foldl_sortRound {a : String} : ∀ (input : List String) (acc : List String × Bool),
    a ∈ (input.foldl (sortRound search) acc).1 ↔ a ∈ acc.1 ∨ a ∈ input ∧ a ≠ ""
  | [], acc => by simp
  | entry :: input, acc => by
      rw [List.foldl_cons, mem_foldl_sortRound input]
      unfold sortRound
      split
      · rename_i hskip
        constructor
        · exact Or.imp_right fun h => ⟨List.mem_cons_of_mem entry h.1, h.2⟩
        · -- an entry that is skipped is empty or has been collected
          rintro (h | ⟨h, hne⟩)
          · exact Or.inl h
          · rcases List.mem_cons.mp h with rfl | h
            · exact Or.inl (by simpa [hne] using hskip)
            · exact Or.inr ⟨h, hne⟩
      · rename_i hskip
        have hentry : entry ≠ "" := fun h => hskip (Or.inl h)
        simp only [List.mem_append, List.mem_cons, List.not_mem_nil, or_false]
        constructor
        · rintro ((h | rfl) | ⟨h, hne⟩)
          · exact Or.inl h
          · exact Or.inr ⟨Or.inl rfl, hentry⟩
          · exact Or.inr ⟨Or.inr h, hne⟩
        · rintro (h | ⟨rfl | h, hne⟩)
          · exact Or.inl (Or.inl h)
          · exact Or.inl (Or.inr rfl)
          · exact Or.inr ⟨h, hne⟩

theorem mem_sortServers {input : List String} {a : String} :
    a ∈ (sortServers input search).1 ↔ a ∈ addressSet input := by
  have hperm := List.perm_insertionSort (· ≤ ·) (input.foldl (sortRound search) ([], false)).1
  rw [mem_addressSet]
  refine hperm.mem_iff.trans ((mem_foldl_sortRound input ([], false)).trans ?_)
  simp

theorem toFinset_sortServers (input : List String) :
    (sortServers input search).1.toFinset = addressSet input := by
  ext a
  rw [List.mem_toFinset, mem_sortServers]

theorem pairwise_sortServers (hsearch : search ≠ "") (input : List String) :
    (sortServers input search).1.Pairwise (· < ·) := by
  have hle : (sortServers input search).1.Pairwise (· ≤ ·) := List.pairwise_insertionSort (· ≤ ·) _
  exact (hle.and (nodup_sortServers hsearch input)).imp fun h => lt_of_le_of_ne h.1 h.2

/-- Increasing lists with the same members are the same. -/
theorem eq_of_toFinset_eq {l l' : List String} (hl : l.Pairwise (· < ·)) (hl' : l'.Pairwise (· < ·))
    (h : l.toFinset = l'.toFinset) : l = l' := by
  have hperm : l.Perm l' := by
    refine (List.perm_ext_iff_of_nodup (hl.imp ne_of_lt) (hl'.imp ne_of_lt)).mpr fun a => ?_
    rw [← List.mem_toFinset, h, List.mem_toFinset]
  exact hperm.eq_of_pairwise (fun a b _ _ hab hba => absurd hab (lt_asymm hba)) hl hl'

/-- `sortServers` reads the set of addresses only. -/
theorem sortServers_congr (hsearch : search ≠ "") {input input' : List String}
    (h : addressSet input = addressSet input') : sortServers input search = sortServers input' search := by
  have hlist : (sortServers input search).1 = (sortServers input' search).1 := by
    refine eq_of_toFinset_eq (pairwise_sortServers hsearch input) (pairwise_sortServers hsearch input') ?_
    rw [toFinset_sortServers, toFinset_sortServers, h]
  have hfound : (sortServers input search).2 = (sortServers input' search).2 := by
    rw [Bool.eq_iff_iff, found_sortServers hsearch, found_sortServers hsearch, hlist]
  exact Prod.ext hlist hfound

end SortServers

/-! ## Balancers with sorted addresses -/

variable {lb : LoadBalancer}

/-- `nextServer` does not touch the addresses. -/
theorem serverAddresses_nextServer (failedServer : String) :
    (lb.nextServer failedServer).2.serverAddresses = lb.serverAddresses := by
  unfold LoadBalancer.nextServer
  split
  · rfl
  · split
    · rfl
    · split <;> rfl

/-- The addresses are sorted and distinct in every reachable balancer. -/
theorem Reachable.pairwise (h : Reachable lb) : lb.serverAddresses.Pairwise (· < ·) := by
  induction h with
  | start status horiginal => exact List.Pairwise.nil
  | @setServers lb h sh input ih =>
      rcases setServers_cases lb sh input with ⟨hkept, -⟩ | ⟨-, -, randomServers, -, hset⟩
      · rw [hkept]
        exact ih
      · rw [hset]
        exact pairwise_sortServers h.inPlace.original input
  | @nextServer lb _ failedServer ih =>
      rw [serverAddresses_nextServer]
      exact ih
  | healthCheck _ _ ih => exact ih

/-! ## The comparison of sets -/

/-- The first balancer has become the second one, with new addresses: in order in one list; in the other one
shuffled, with the original address among them and the cursor on the first. -/
structure Serves (lb : LoadBalancer) (addresses : Finset String) (lb' : LoadBalancer) : Prop where
  sorted : lb'.serverAddresses.Pairwise (· < ·)
  serverAddresses : lb'.serverAddresses.toFinset = addresses
  nodup : lb'.randomServers.Nodup
  randomServers : lb'.randomServers.toFinset = insert lb.originalServerAddress addresses
  cursor : ∃ rest, lb'.randomServers = lb'.currentServerAddress :: rest
  nextServerIndex : lb'.nextServerIndex = 1
  originalServerAddress : lb'.originalServerAddress = lb.originalServerAddress
  serverHealthStatus : lb'.serverHealthStatus = lb.serverHealthStatus

/-- The shuffled list has the addresses and the original one. -/
theorem toFinset_randomServers {search : String} (hsearch : search ≠ "") (sh : Shuffle)
    (input : List String) :
    (if !(sortServers input search).2 then sh.order (sortServers input search).1 ++ [search]
      else sh.order (sortServers input search).1).toFinset = insert search (addressSet input) := by
  have hshuffled : (sh.order (sortServers input search).1).toFinset = addressSet input := by
    rw [← toFinset_sortServers input]
    exact List.toFinset_eq_of_perm _ _ (sh.perm _)
  cases hfound : (sortServers input search).2 with
  | false =>
      simp only [Bool.not_false, if_true]
      rw [List.toFinset_append, hshuffled, Finset.union_comm]
      rfl
  | true =>
      simp only [Bool.not_true, Bool.false_eq_true, if_false]
      have hmem : search ∈ addressSet input :=
        mem_sortServers.mp ((found_sortServers hsearch input).mp hfound)
      rw [hshuffled, Finset.insert_eq_of_mem hmem]

theorem sortServers_eq_nil_iff {search : String} (input : List String) :
    (sortServers input search).1 = [] ↔ addressSet input = ∅ := by
  rw [← toFinset_sortServers, List.toFinset_eq_empty_iff]

theorem Reachable.sortServers_eq_iff (h : Reachable lb) (input : List String) :
    (sortServers input lb.originalServerAddress).1 = lb.serverAddresses ↔
      addressSet input = lb.serverAddresses.toFinset := by
  constructor
  · intro heq
    rw [← heq, toFinset_sortServers]
  · intro hset
    refine eq_of_toFinset_eq (pairwise_sortServers h.inPlace.original input) h.pairwise ?_
    rw [toFinset_sortServers, hset]

/-- For every reachable balancer and every list: `setServers` changes nothing exactly when the list has no
address or those that the balancer has.  Otherwise the balancer serves them from then on, in whatever order
the shuffle puts them.  Lists with the same addresses have the same effect. -/
theorem setServers_set {lb : LoadBalancer} (h : Reachable lb) (sh : Shuffle) (input : List String) :
    (lb.setServers sh input = (false, lb) ↔
        addressSet input = ∅ ∨ addressSet input = lb.serverAddresses.toFinset) ∧
      (¬(addressSet input = ∅ ∨ addressSet input = lb.serverAddresses.toFinset) →
        (lb.setServers sh input).1 = true ∧ lb.Serves (addressSet input) (lb.setServers sh input).2) ∧
      ∀ input', addressSet input' = addressSet input → lb.setServers sh input' = lb.setServers sh input := by
  have horiginal := h.inPlace.original
  have hset : (sortServers input lb.originalServerAddress).1 = [] ∨
      (sortServers input lb.originalServerAddress).1 = lb.serverAddresses ↔
        addressSet input = ∅ ∨ addressSet input = lb.serverAddresses.toFinset :=
    or_congr (sortServers_eq_nil_iff input) (h.sortServers_eq_iff input)
  refine ⟨?_, ?_, fun input' heq => ?_⟩
  · rw [← hset]
    rcases setServers_cases lb sh input with ⟨hkept, hsame⟩ | ⟨hnil, hother, randomServers, -, hnew⟩
    · exact iff_of_true hkept hsame
    · refine iff_of_false ?_ (by rintro (hc | hc) <;> contradiction)
      rw [hnew]
      intro hc
      cases (Prod.mk.inj hc).1
  · rw [← hset]
    intro hchange
    rcases setServers_cases lb sh input with ⟨-, hsame⟩ | ⟨hnil, -, randomServers, hrandom, hnew⟩
    · exact absurd hsame hchange
    · have hinPlace := h.inPlace.setServers sh input
      rw [hnew] at hinPlace ⊢
      have hlist : randomServers.toFinset = insert lb.originalServerAddress (addressSet input) := by
        rw [hrandom]
        exact toFinset_randomServers horiginal sh input
      have hcons : ∃ rest, randomServers = randomServers.headD "" :: rest := by
        cases randomServers with
        | nil => exact absurd hlist.symm (Finset.insert_ne_empty _ _)
        | cons first rest => exact ⟨rest, rfl⟩
      exact ⟨rfl, pairwise_sortServers horiginal input, toFinset_sortServers input, hinPlace.nodup, hlist,
        hcons, rfl, rfl, rfl⟩
  · unfold LoadBalancer.setServers
    rw [sortServers_congr horiginal heq]

/-- One address, given twice and with an empty entry between, to a new balancer that was configured with
another one. -/
theorem setServers_set_twice :
    let lb : LoadBalancer := ⟨∅, "a", 0, "", [], []⟩
    addressSet ["b", "", "b"] = {"b"} ∧ lb.Serves {"b"} (lb.setServers .none ["b", "", "b"]).2 := by
  intro lb
  have haddresses : addressSet ["b", "", "b"] = {"b"} := by decide
  have hreach : Reachable lb := .start ∅ (by decide)
  refine ⟨haddresses, ?_⟩
  have hserves := (setServers_set hreach .none ["b", "", "b"]).2.1 (by decide)
  rw [← haddresses]
  exact hserves.2

end LoadBalancer

end OteStack.LoadBalancing
