/-
# OteStack.Tunnel.EdgeTunnel — which parent an edge tunnel dials next.

`pkg/tunnel/edgetunnel.go`.  A tunnel dials its configured parent.  When a dial fails the address goes
on a blacklist and one of the parent's neighbours that is not on it is dialled instead; when there is
none, the oldest address of the blacklist, if it has been there for more than ten seconds.  A redirect
changes the address as well, and the one before is remembered for the next failure.

As long as nobody redirects, whatever is true of the configured address and of the neighbours of the
parents is true of every address the tunnel ever dials (`EdgeTunnel.AddrsAll`).
-/
import OteStack.ClusterRouter.Router

namespace OteStack

open OteStack.Lib (GoMap MapOrder)

/-! ## The blacklist -/

/-- A time in nanoseconds since 1970. -/
abbrev Time := Int

/-- The zero value of Go's `time.Time`, which a map without the key yields. -/
def zeroTime : Time := -62135596800 * 10 ^ 9

/-- How long an address stays on the blacklist at least. -/
def blacklistSeconds : ℤ := 10

/-- Go's `CloudBlackList`: the addresses in the order in which they were added, and when. -/
structure CloudBlackList where
  addrList : List String
  addrMap : GoMap String Time
  deriving DecidableEq

namespace CloudBlackList

/-- A blacklist without addresses. -/
def empty : CloudBlackList := ⟨[], ∅⟩

/-- Go's `Push`. -/
def push (b : CloudBlackList) (now : Time) (addr : String) : CloudBlackList :=
  match b.addrMap.get addr with
  | some _ => b
  | none => ⟨b.addrList ++ [addr], b.addrMap.set addr now⟩

/-- Go's `Pop`; the empty address stands for none. -/
def pop (b : CloudBlackList) (now : Time) : String × CloudBlackList :=
  match b.addrList with
  | [] => ("", b)
  | addr :: rest =>
      let timeAdded := (b.addrMap.get addr).getD zeroTime
      if now - timeAdded ≤ blacklistSeconds * 10 ^ 9 then ("", b)
      else (addr, ⟨rest, b.addrMap.delete addr⟩)

/-- Go's `Find`. -/
def find (b : CloudBlackList) (addr : String) : Bool := (b.addrMap.get addr).isSome

/-- Go's `Clear`. -/
def clear (_ : CloudBlackList) : CloudBlackList := empty

theorem mem_push {b : CloudBlackList} {now : Time} {addr a : String}
    (h : a ∈ (b.push now addr).addrList) : a ∈ b.addrList ∨ a = addr := by
  unfold push at h
  split at h
  · exact Or.inl h
  · rcases List.mem_append.mp h with h | h
    · exact Or.inl h
    · exact Or.inr (List.mem_singleton.mp h)

theorem mem_pop {b : CloudBlackList} {now : Time} {a : String}
    (h : a ∈ (b.pop now).2.addrList) : a ∈ b.addrList := by
  unfold pop at h
  cases hl : b.addrList with
  | nil => simp [hl] at h
  | cons addr rest =>
      simp only [hl] at h
      split at h
      · rw [← hl]
        exact h
      · exact List.mem_cons_of_mem addr h

theorem pop_mem {b : CloudBlackList} {now : Time} (h : (b.pop now).1 ≠ "") :
    (b.pop now).1 ∈ b.addrList := by
  unfold pop at h ⊢
  cases hl : b.addrList with
  | nil => simp [hl] at h
  | cons addr rest =>
      simp only [hl] at h ⊢
      split at h
      · exact absurd rfl h
      · rename_i hold
        rw [if_neg hold]
        exact List.mem_cons_self

end CloudBlackList

/-! ## The tunnel -/

/-- The addresses of an edge tunnel. -/
structure EdgeTunnel where
  cloudAddr : String
  originCloudAddr : String
  blackList : CloudBlackList
  deriving DecidableEq

namespace EdgeTunnel

/-- Go's `NewEdgeTunnel`. -/
def new (parentCluster : String) : EdgeTunnel := ⟨parentCluster, "", CloudBlackList.empty⟩

/-- The first of the parent's neighbours that is not on the blacklist, in the order of the range; the
empty address stands for none. -/
def firstNeighbor (it : MapOrder String) (b : CloudBlackList)
    (parentNeighbors : Option (GoMap String String)) : String :=
  match parentNeighbors with
  | none => ""
  | some m => (((it.order m).filterMap m.get).find? fun addr => !b.find addr).getD ""

/-- Go's `chooseParentNeighbor`: whether an address was found, and the tunnel afterwards. -/
def chooseParentNeighbor (it : MapOrder String) (now : Time)
    (parentNeighbors : Option (GoMap String String)) (e : EdgeTunnel) : Bool × EdgeTunnel :=
  let blackList := e.blackList.push now e.cloudAddr
  let choose := firstNeighbor it blackList parentNeighbors
  let (choose, blackList) := if choose = "" then blackList.pop now else (choose, blackList)
  if choose = "" then (false, { e with blackList := blackList })
  else (true, { e with cloudAddr := choose, blackList := blackList })

/-- The body of the loop of `reconnect` after a dial that failed. -/
def dialFailed (it : MapOrder String) (now : Time)
    (parentNeighbors : Option (GoMap String String)) (e : EdgeTunnel) : EdgeTunnel :=
  if e.originCloudAddr ≠ "" then { e with cloudAddr := e.originCloudAddr, originCloudAddr := "" }
  else (e.chooseParentNeighbor it now parentNeighbors).2

/-- A dial that was answered with a redirect. -/
def redirected (host : String) (e : EdgeTunnel) : EdgeTunnel :=
  { e with originCloudAddr := e.cloudAddr, cloudAddr := host }

/-- The end of `reconnect`. -/
def reconnected (e : EdgeTunnel) : EdgeTunnel := { e with blackList := e.blackList.clear }

/-! ## The addresses a tunnel dials -/

/-- The address of the tunnel and those on its blacklist have the property, and no other is
remembered. -/
structure AddrsAll (ok : String → Prop) (e : EdgeTunnel) : Prop where
  cloudAddr : ok e.cloudAddr
  originCloudAddr : e.originCloudAddr = ""
  blackList : ∀ addr ∈ e.blackList.addrList, ok addr

variable {ok : String → Prop} {e : EdgeTunnel}

theorem addrsAll_new {parentCluster : String} (h : ok parentCluster) :
    (new parentCluster).AddrsAll ok := ⟨h, rfl, by simp [new, CloudBlackList.empty]⟩

theorem firstNeighbor_mem {it : MapOrder String} {b : CloudBlackList}
    {parentNeighbors : Option (GoMap String String)}
    (h : firstNeighbor it b parentNeighbors ≠ "") :
    ∃ m k, parentNeighbors = some m ∧ m.get k = some (firstNeighbor it b parentNeighbors) := by
  cases parentNeighbors with
  | none => exact absurd rfl h
  | some m =>
      simp only [firstNeighbor] at h ⊢
      cases hf : ((it.order m).filterMap m.get).find? fun addr => !b.find addr with
      | none => simp [hf] at h
      | some addr =>
          obtain ⟨k, -, hk⟩ := List.mem_filterMap.mp (List.mem_of_find?_eq_some hf)
          exact ⟨m, k, rfl, hk⟩

/-- The next address comes from the neighbours or from the blacklist, where the present one now is. -/
theorem AddrsAll.dialFailed (h : e.AddrsAll ok) (it : MapOrder String) (now : Time)
    {parentNeighbors : Option (GoMap String String)} (hn : TableOf ok parentNeighbors) :
    (e.dialFailed it now parentNeighbors).AddrsAll ok := by
  have hpush : ∀ addr ∈ (e.blackList.push now e.cloudAddr).addrList, ok addr := by
    intro addr haddr
    rcases CloudBlackList.mem_push haddr with haddr | rfl
    · exact h.blackList addr haddr
    · exact h.cloudAddr
  rw [EdgeTunnel.dialFailed, if_neg (by simp [h.originCloudAddr])]
  simp only [chooseParentNeighbor]
  by_cases hfirst : firstNeighbor it (e.blackList.push now e.cloudAddr) parentNeighbors = ""
  · simp only [hfirst, if_true]
    have hpop : ∀ addr ∈ ((e.blackList.push now e.cloudAddr).pop now).2.addrList, ok addr :=
      fun addr haddr => hpush addr (CloudBlackList.mem_pop haddr)
    split
    · exact ⟨h.cloudAddr, h.originCloudAddr, hpop⟩
    · rename_i hchosen
      exact ⟨hpush _ (CloudBlackList.pop_mem hchosen), h.originCloudAddr, hpop⟩
  · simp only [hfirst, if_false]
    obtain ⟨m, k, hm, hk⟩ := firstNeighbor_mem hfirst
    exact ⟨hn m hm k _ hk, h.originCloudAddr, hpush⟩

theorem AddrsAll.reconnected (h : e.AddrsAll ok) : e.reconnected.AddrsAll ok :=
  ⟨h.cloudAddr, h.originCloudAddr, by
    simp [EdgeTunnel.reconnected, CloudBlackList.clear, CloudBlackList.empty]⟩

end EdgeTunnel

end OteStack
