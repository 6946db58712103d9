/-
# OteStack.Tunnel.BlackList — the blacklist of an edge tunnel as a timed queue.

`CloudBlackList` of `pkg/tunnel/edgetunnel.go` keeps each address twice: in a list, for the order, and in a
map, for the time at which it was added.  What the two together stand for is a queue of addresses with
times.  `Push` adds an address at the end unless it is there, `Pop` takes the first one if it has been there
for long enough.

`Session` carries along what was added and what was taken since the last `Clear`.  The queue is what was
added and not yet taken (`Session.queue`), and `Keeps` says how list and map represent it.
`blackList_timed_queue` is what follows for every sequence of calls.
-/
import OteStack.Tunnel.EdgeTunnel

namespace OteStack

open OteStack.Lib (GoMap)

namespace CloudBlackList

/-! ## Calls -/

/-- A call on a blacklist. -/
inductive Call where
  | push (addr : String)
  | pop
  | clear
  deriving DecidableEq, Repr

/-- A blacklist, with the addresses added and those returned by `Pop` since the last `Clear`. -/
structure Session where
  blackList : CloudBlackList
  inserted : List (String × Time)
  popped : List String

namespace Session

/-- Nothing has happened. -/
def start : Session := ⟨empty, [], []⟩

/-- A call at a time. -/
def step (s : Session) (call : Time × Call) : Session :=
  match call.2 with
  | .push addr =>
      { s with
        blackList := s.blackList.push call.1 addr
        inserted := if s.blackList.find addr then s.inserted else s.inserted ++ [(addr, call.1)] }
  | .pop =>
      let (addr, blackList) := s.blackList.pop call.1
      { s with
        blackList := blackList
        popped := if addr = "" then s.popped else s.popped ++ [addr] }
  | .clear => ⟨s.blackList.clear, [], []⟩

/-- A sequence of calls. -/
def run (s : Session) (calls : List (Time × Call)) : Session := calls.foldl step s

/-- What has been added and not yet taken. -/
def queue (s : Session) : List (String × Time) := s.inserted.drop s.popped.length

/-! ## List and map represent the queue -/

/-- The addresses taken are the first ones added, list and map hold the others, and the times of these go up
along the list. -/
structure Keeps (s : Session) : Prop where
  inserted : s.inserted.map Prod.fst = s.popped ++ s.blackList.addrList
  get : ∀ a t, s.blackList.addrMap.get a = some t ↔ (a, t) ∈ s.queue
  nodup : s.blackList.addrList.Nodup
  times : s.queue.Pairwise fun e e' => e.2 ≤ e'.2
  nonempty : ∀ addr ∈ s.blackList.addrList, addr ≠ ""

variable {s : Session}

theorem keeps_start : Keeps start where
  inserted := rfl
  get a t := by simp [start, empty, queue]
  nodup := List.nodup_nil
  times := List.Pairwise.nil
  nonempty := by simp [start, empty]

theorem Keeps.addrList_eq (h : s.Keeps) : s.blackList.addrList = s.queue.map Prod.fst := by
  rw [queue, List.map_drop, h.inserted, List.drop_left]

theorem Keeps.length_popped_le (h : s.Keeps) : s.popped.length ≤ s.inserted.length := by
  have hlen := congrArg List.length h.inserted
  rw [List.length_map, List.length_append] at hlen
  omega

theorem Keeps.mem_addrList_iff (h : s.Keeps) {a : String} :
    a ∈ s.blackList.addrList ↔ ∃ t, s.blackList.addrMap.get a = some t := by
  simp [h.addrList_eq, h.get]

theorem Keeps.find_iff (h : s.Keeps) {a : String} :
    s.blackList.find a = true ↔ a ∈ s.blackList.addrList := by
  rw [find, Option.isSome_iff_exists, h.mem_addrList_iff]

/-- The time of an address is the one in the queue. -/
theorem Keeps.get_of_queue (h : s.Keeps) {a : String} {t : Time} (he : (a, t) ∈ s.queue) :
    (s.blackList.addrMap.get a).getD zeroTime = t := by
  rw [(h.get a t).mpr he]
  rfl

/-! ### One call -/

/-- An address that is there is not added again. -/
theorem step_push_of_find {now : Time} {addr : String} (hfind : s.blackList.find addr = true) :
    s.step (now, .push addr) = s := by
  have hsame : s.blackList.push now addr = s.blackList := by
    obtain ⟨t, ht⟩ := Option.isSome_iff_exists.mp hfind
    rw [CloudBlackList.push, ht]
  simp only [step]
  rw [if_pos hfind, hsame]

/-- An address that is not there is added at the end. -/
theorem step_push_of_not_find {now : Time} {addr : String} (hfind : ¬ s.blackList.find addr = true) :
    s.step (now, .push addr) =
      ⟨⟨s.blackList.addrList ++ [addr], s.blackList.addrMap.set addr now⟩, s.inserted ++ [(addr, now)],
        s.popped⟩ := by
  have hget : s.blackList.addrMap.get addr = none := by simpa [find] using hfind
  simp only [step]
  rw [if_neg hfind, CloudBlackList.push, hget]

theorem Keeps.queue_push (h : s.Keeps) {now : Time} {addr : String}
    (hfind : ¬ s.blackList.find addr = true) :
    (s.step (now, .push addr)).queue = s.queue ++ [(addr, now)] := by
  rw [step_push_of_not_find hfind]
  exact List.drop_append_of_le_length h.length_popped_le

theorem Keeps.push_of_not_find (h : s.Keeps) {now : Time} {addr : String} (haddr : addr ≠ "")
    (hlate : ∀ e ∈ s.queue, e.2 ≤ now) (hfind : ¬ s.blackList.find addr = true) :
    (s.step (now, .push addr)).Keeps := by
  have hget : s.blackList.addrMap.get addr = none := by simpa [find] using hfind
  have hnew : addr ∉ s.blackList.addrList := fun hmem => hfind (h.find_iff.mpr hmem)
  have hqueue : (s.step (now, .push addr)).queue = s.queue ++ [(addr, now)] := h.queue_push hfind
  rw [step_push_of_not_find hfind] at hqueue ⊢
  refine ⟨?_, fun a t => ?_, ?_, ?_, ?_⟩
  · rw [List.map_append, h.inserted, List.append_assoc]
    rfl
  · rw [hqueue, List.mem_append, List.mem_singleton, ← h.get, GoMap.get_set_eq_some, Prod.mk.injEq]
    constructor
    · rintro (⟨ha, ht⟩ | ⟨-, ha⟩)
      · exact Or.inr ⟨ha, ht.symm⟩
      · exact Or.inl ha
    · rintro (ha | ⟨ha, ht⟩)
      · refine Or.inr ⟨?_, ha⟩
        rintro rfl
        rw [hget] at ha
        cases ha
      · exact Or.inl ⟨ha, ht.symm⟩
  · rw [← List.concat_eq_append]
    exact h.nodup.concat hnew
  · rw [hqueue, List.pairwise_append]
    exact ⟨h.times, List.pairwise_singleton _ _, by simpa using fun a t he => hlate (a, t) he⟩
  · intro a ha
    rcases List.mem_append.mp ha with ha | ha
    · exact h.nonempty a ha
    · rw [List.mem_singleton.mp ha]
      exact haddr

theorem Keeps.push (h : s.Keeps) {now : Time} {addr : String} (haddr : addr ≠ "")
    (hlate : ∀ e ∈ s.queue, e.2 ≤ now) :
    (s.step (now, .push addr)).Keeps ∧
      ∀ e ∈ (s.step (now, .push addr)).queue, e ∈ s.queue ∨ e.2 = now := by
  by_cases hfind : s.blackList.find addr = true
  · rw [step_push_of_find hfind]
    exact ⟨h, fun e he => Or.inl he⟩
  · refine ⟨h.push_of_not_find haddr hlate hfind, fun e he => ?_⟩
    rw [h.queue_push hfind, List.mem_append, List.mem_singleton] at he
    exact he.imp_right fun he => by rw [he]

theorem Keeps.addrList_of_queue (h : s.Keeps) {addr : String} {t : Time} {rest : List (String × Time)}
    (hqueue : s.queue = (addr, t) :: rest) : s.blackList.addrList = addr :: rest.map Prod.fst := by
  rw [h.addrList_eq, hqueue, List.map_cons]

/-- What `Pop` does to a queue with a first element. -/
theorem Keeps.pop_cons (h : s.Keeps) {now : Time} {addr : String} {t : Time} {rest : List (String × Time)}
    (hqueue : s.queue = (addr, t) :: rest) :
    s.blackList.pop now =
      if now - t ≤ blacklistSeconds * 10 ^ 9 then ("", s.blackList)
      else (addr, ⟨rest.map Prod.fst, s.blackList.addrMap.delete addr⟩) := by
  have htime : (s.blackList.addrMap.get addr).getD zeroTime = t := h.get_of_queue (by simp [hqueue])
  rw [CloudBlackList.pop, h.addrList_of_queue hqueue]
  simp only [htime]

theorem Keeps.pop_nil (h : s.Keeps) (hqueue : s.queue = []) (now : Time) :
    s.blackList.pop now = ("", s.blackList) := by
  have hlist : s.blackList.addrList = [] := by rw [h.addrList_eq, hqueue, List.map_nil]
  rw [CloudBlackList.pop, hlist]

/-- A call of `Pop` that finds nothing. -/
theorem step_pop_of_none {now : Time} (hpop : s.blackList.pop now = ("", s.blackList)) :
    s.step (now, .pop) = s := by
  simp only [step, hpop, if_true]

section Popped

variable {now t : Time} {addr : String} {rest : List (String × Time)}

/-- A call of `Pop` that takes the first address. -/
theorem Keeps.step_pop (h : s.Keeps) (hqueue : s.queue = (addr, t) :: rest)
    (hold : ¬ now - t ≤ blacklistSeconds * 10 ^ 9) :
    s.step (now, .pop) =
      ⟨⟨rest.map Prod.fst, s.blackList.addrMap.delete addr⟩, s.inserted, s.popped ++ [addr]⟩ := by
  have hne : addr ≠ "" := h.nonempty addr (by simp [h.addrList_of_queue hqueue])
  simp only [step, (h.pop_cons hqueue).trans (if_neg hold), if_neg hne]

theorem Keeps.queue_pop (h : s.Keeps) (hqueue : s.queue = (addr, t) :: rest)
    (hold : ¬ now - t ≤ blacklistSeconds * 10 ^ 9) : (s.step (now, .pop)).queue = rest := by
  have hdrop : s.inserted.drop (s.popped.length + 1) = s.queue.drop 1 := List.drop_drop.symm
  rw [h.step_pop hqueue hold, queue, List.length_append, List.length_singleton, hdrop, hqueue,
    List.drop_one, List.tail_cons]

theorem Keeps.pop_of_old (h : s.Keeps) (hqueue : s.queue = (addr, t) :: rest)
    (hold : ¬ now - t ≤ blacklistSeconds * 10 ^ 9) : (s.step (now, .pop)).Keeps := by
  have hlist := h.addrList_of_queue hqueue
  have hrest := h.queue_pop hqueue hold
  have hnodup := h.nodup
  rw [hlist, List.nodup_cons] at hnodup
  have htimes := h.times
  rw [hqueue, List.pairwise_cons] at htimes
  rw [h.step_pop hqueue hold] at hrest ⊢
  refine ⟨?_, fun a u => ?_, hnodup.2, hrest ▸ htimes.2, fun a ha => ?_⟩
  · rw [h.inserted, hlist, List.append_assoc]
    rfl
  · -- the rest of the queue does not have the address taken
    rw [hrest, GoMap.get_delete]
    have hget := h.get a u
    rw [hqueue, List.mem_cons] at hget
    by_cases ha : a = addr
    · subst ha
      rw [if_pos rfl]
      refine iff_of_false (by simp) fun hmem => hnodup.1 ?_
      exact List.mem_map.mpr ⟨(a, u), hmem, rfl⟩
    · rw [if_neg ha, hget]
      exact or_iff_right fun heq => ha (Prod.mk.inj heq).1
  · exact h.nonempty a (by rw [hlist]; exact List.mem_cons_of_mem addr ha)

end Popped

theorem Keeps.pop (h : s.Keeps) (now : Time) :
    (s.step (now, .pop)).Keeps ∧ ∀ e ∈ (s.step (now, .pop)).queue, e ∈ s.queue := by
  cases hqueue : s.queue with
  | nil =>
      rw [step_pop_of_none (h.pop_nil hqueue now)]
      exact ⟨h, fun e he => hqueue ▸ he⟩
  | cons entry rest =>
      obtain ⟨addr, t⟩ := entry
      by_cases hrecent : now - t ≤ blacklistSeconds * 10 ^ 9
      · rw [step_pop_of_none ((h.pop_cons hqueue).trans (if_pos hrecent))]
        exact ⟨h, fun e he => hqueue ▸ he⟩
      · refine ⟨h.pop_of_old hqueue hrecent, fun e he => ?_⟩
        rw [h.queue_pop hqueue hrecent] at he
        exact List.mem_cons_of_mem (addr, t) he

/-! ### A sequence of calls -/

/-- A call at a time keeps the representation, and no time in the queue is later than that. -/
theorem Keeps.step (h : s.Keeps) {now : Time} {call : Call} (hpush : ∀ addr, call = .push addr → addr ≠ "")
    (hlate : ∀ e ∈ s.queue, e.2 ≤ now) :
    (s.step (now, call)).Keeps ∧ ∀ e ∈ (s.step (now, call)).queue, e ∈ s.queue ∨ e.2 = now := by
  cases call with
  | push addr => exact h.push (hpush addr rfl) hlate
  | pop =>
      obtain ⟨hkeeps, hqueue⟩ := h.pop now
      exact ⟨hkeeps, fun e he => Or.inl (hqueue e he)⟩
  | clear => exact ⟨keeps_start, fun e he => absurd he List.not_mem_nil⟩

theorem Keeps.run : ∀ {calls : List (Time × Call)} {s : Session}, s.Keeps →
    (calls.map Prod.fst).Pairwise (· ≤ ·) → (∀ addr, Call.push addr ∈ calls.map Prod.snd → addr ≠ "") →
      (∀ e ∈ s.queue, ∀ now ∈ calls.map Prod.fst, e.2 ≤ now) → (s.run calls).Keeps
  | [], _, h, _, _, _ => h
  | (now, call) :: calls, s, h, hclock, hpush, hlate => by
      rw [List.map_cons, List.pairwise_cons] at hclock
      have hcall : ∀ addr, call = .push addr → addr ≠ "" := by
        rintro addr rfl
        exact hpush addr List.mem_cons_self
      obtain ⟨hstep, hqueue⟩ := h.step hcall fun e he => hlate e he now List.mem_cons_self
      show ((s.step (now, call)).run calls).Keeps
      refine Keeps.run hstep hclock.2 (fun addr haddr => hpush addr (List.mem_cons_of_mem call haddr)) ?_
      intro e he later hlater
      rcases hqueue e he with he | he
      · exact hlate e he later (List.mem_cons_of_mem now hlater)
      · rw [he]
        exact hclock.1 later hlater

/-! ### What `Pop` returns -/

/-- The address has been on the list for more than `blacklistSeconds`. -/
def Expired (b : CloudBlackList) (now : Time) (addr : String) : Prop :=
  ∃ t, b.addrMap.get addr = some t ∧ blacklistSeconds * 10 ^ 9 < now - t

/-- `Pop` takes the first address if that has expired; otherwise none has. -/
theorem Keeps.pop_cases (h : s.Keeps) (now : Time) :
    (s.blackList.pop now = ("", s.blackList) ∧
        ∀ addr ∈ s.blackList.addrList, ¬ Expired s.blackList now addr) ∨
      ∃ addr rest, s.blackList.addrList = addr :: rest ∧ Expired s.blackList now addr ∧
        s.blackList.pop now = (addr, ⟨rest, s.blackList.addrMap.delete addr⟩) := by
  cases hqueue : s.queue with
  | nil =>
      refine Or.inl ⟨h.pop_nil hqueue now, ?_⟩
      simp [h.addrList_eq, hqueue]
  | cons entry rest =>
      obtain ⟨addr, t⟩ := entry
      have hfirst : s.blackList.addrMap.get addr = some t := (h.get addr t).mpr (by simp [hqueue])
      by_cases hrecent : now - t ≤ blacklistSeconds * 10 ^ 9
      · refine Or.inl ⟨(h.pop_cons hqueue).trans (if_pos hrecent), ?_⟩
        -- the others came later than the first one
        rintro a - ⟨u, hu, hold⟩
        have hmem := (h.get a u).mp hu
        have htimes := h.times
        rw [hqueue, List.pairwise_cons] at htimes
        rw [hqueue, List.mem_cons] at hmem
        rcases hmem with heq | hmem
        · rw [(Prod.mk.inj heq).2] at hold
          exact Int.not_lt.mpr hrecent hold
        · have hle : t ≤ u := htimes.1 (a, u) hmem
          exact Int.not_lt.mpr hrecent (Int.lt_of_lt_of_le hold (Int.sub_le_sub_left hle now))
      · exact Or.inr ⟨addr, rest.map Prod.fst, h.addrList_of_queue hqueue,
          ⟨t, hfirst, Int.not_le.mp hrecent⟩, (h.pop_cons hqueue).trans (if_neg hrecent)⟩

end Session

open Session (start Expired)

/-- After every sequence of calls with a clock that does not go back, the blacklist is a queue without
duplicates.  List and map hold the same addresses, in the order in which they were added: what `Pop` has
returned since the last `Clear`, followed by the list, is what was added.  `Pop` returns an address of the
list that has been there for long enough, and nothing exactly when there is none. -/
theorem blackList_timed_queue {calls : List (Time × Call)} (hclock : (calls.map Prod.fst).Pairwise (· ≤ ·))
    (hpush : ∀ addr, Call.push addr ∈ calls.map Prod.snd → addr ≠ "") :
    let s := start.run calls
    let b := s.blackList
    b.addrList.Nodup ∧ (∀ a, a ∈ b.addrList ↔ a ∈ b.addrMap.keys) ∧
      (b.addrList.Pairwise fun a a' => ∀ t t', b.addrMap.get a = some t → b.addrMap.get a' = some t' →
        t ≤ t') ∧
      s.inserted.map Prod.fst = s.popped ++ b.addrList ∧
      (∀ a t, b.addrMap.get a = some t ↔ (a, t) ∈ s.inserted.drop s.popped.length) ∧
      ∀ now,
        ((b.pop now).1 ≠ "" →
          (∃ rest, b.addrList = (b.pop now).1 :: rest ∧ (b.pop now).2.addrList = rest) ∧
            Expired b now (b.pop now).1) ∧
          ((b.pop now).1 = "" ↔ ¬ ∃ a ∈ b.addrList, a ≠ "" ∧ Expired b now a) ∧
          ((b.pop now).1 = "" → (b.pop now).2 = b) := by
  have h : (start.run calls).Keeps :=
    Session.Keeps.run Session.keeps_start hclock hpush (by simp [Session.queue, start])
  intro s b
  refine ⟨h.nodup, fun a => ?_, ?_, h.inserted, h.get, fun now => ?_⟩
  · rw [h.mem_addrList_iff, GoMap.mem_keys]
  · rw [h.addrList_eq, List.pairwise_map]
    refine h.times.imp_of_mem ?_
    rintro ⟨a, u⟩ ⟨a', u'⟩ he he' hle t t' ht ht'
    rw [(h.get a u).mpr he] at ht
    rw [(h.get a' u').mpr he'] at ht'
    rw [← Option.some.inj ht, ← Option.some.inj ht']
    exact hle
  · rcases h.pop_cases now with ⟨hpop, hnone⟩ | ⟨addr, rest, hlist, hold, hpop⟩
    · rw [hpop]
      refine ⟨fun hne => absurd rfl hne, iff_of_true rfl ?_, fun _ => rfl⟩
      rintro ⟨a, ha, -, hexpired⟩
      exact hnone a ha hexpired
    · have hne : addr ≠ "" := h.nonempty addr (by simp [hlist])
      rw [hpop]
      refine ⟨fun _ => ⟨⟨rest, hlist, rfl⟩, hold⟩, iff_of_false hne ?_, fun heq => absurd heq hne⟩
      exact not_not.mpr ⟨addr, by simp [b, s, hlist], hne, hold⟩

/-- Two addresses, one of them added twice: eleven seconds later the first one is taken, and not the other,
which has come in the meantime. -/
theorem blackList_timed_queue_two :
    let calls : List (Time × Call) := [(0, .push "a"), (10 ^ 9, .push "a"), (5 * 10 ^ 9, .push "b"),
      (11 * 10 ^ 9, .pop), (11 * 10 ^ 9, .pop)]
    (start.run calls).popped = ["a"] ∧ (start.run calls).blackList.addrList = ["b"] ∧
      (start.run calls).inserted.map Prod.fst = ["a"] ++ ["b"] := by
  intro calls
  have h := blackList_timed_queue (show (calls.map Prod.fst).Pairwise (· ≤ ·) by decide)
    (by simp [calls])
  exact ⟨by decide, by decide, h.2.2.2.1⟩

end CloudBlackList

end OteStack
