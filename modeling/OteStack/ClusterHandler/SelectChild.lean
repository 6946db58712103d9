/-
# OteStack.ClusterHandler.SelectChild — how a message is divided among the children.

`selectChild` of `pkg/clusterhandler/clusterhandler.go`, with the memory it works in.
`OteStack.ClusterHandler.Broadcast` has the same function on values, which is enough for what is sent.
Here a message refers to its head, as Go's structure does, so that it can be said which heads the
assignment to `Head.ClusterSelector` changes: those that `proto.Clone` has made, and no other
(`represents_selectChild`).

The messages that are sent divide the selected clusters: every one of them is named once, in the message
to the port it is routed through (`selectChild_divides`).
-/
import OteStack.ClusterHandler.Broadcast
import OteStack.EdgeHandler.ControlRequest

namespace OteStack.ClusterHandler

open OteStack.Lib (GoMap MapOrder)
open OteStack.Lib.GoStrings (split join split_join)
open OteStack.EdgeHandler (MessageRef emptyHead)
open SubTreeRouter

/-! ## The function -/

/-- A message as it is found in memory. -/
def read (heads : List MessageHead) (msg : MessageRef) : ClusterMessage :=
  ⟨heads.getD msg.head emptyHead, msg.body⟩

/-- `proto.Clone`: a message with a head of its own, and the memory with this head in it. -/
def clone (heads : List MessageHead) (msg : MessageRef) : MessageRef × List MessageHead :=
  (⟨heads.length, msg.body⟩, heads ++ [heads.getD msg.head emptyHead])

/-- The assignment to `Head.ClusterSelector`. -/
def setClusterSelector (heads : List MessageHead) (msg : MessageRef) (selector : String) :
    List MessageHead :=
  heads.modify msg.head fun head => { head with clusterSelector := selector }

/-- The heads in memory, and the message for each port. -/
structure Selection where
  heads : List MessageHead
  ret : GoMap String MessageRef

/-- One round of the loop of `selectChild`. -/
def selectPort (msg : MessageRef) (ports : GoMap String (List String)) (s : Selection) (port : String) :
    Selection :=
  match ports.get port with
  | none => s
  | some subtree =>
      let (portMsg, heads) := clone s.heads msg
      ⟨setClusterSelector heads portMsg (clustersToSelector subtree), s.ret.set port portMsg⟩

/-- Go's `selectChild`. -/
def selectChild (re : Regexp) (it : MapOrder String) (r : SubTreeRouter) (heads : List MessageHead)
    (msg : MessageRef) : Selection :=
  let ports := portsToSubtreeClusters r (selectedSubTreeClusters re it r (read heads msg))
  (it.order ports).foldl (selectPort msg ports) ⟨heads, ∅⟩

/-! ## Memory -/

section Memory

variable {heads heads' : List MessageHead} {msg : MessageRef}

/-- A message is the same in a memory that has grown. -/
theorem read_of_prefix (h : heads <+: heads') (hmsg : msg.head < heads.length) :
    read heads' msg = read heads msg := by
  obtain ⟨rest, rfl⟩ := h
  simp [read, List.getD, List.getElem?_append_left hmsg]

/-- Cloning and assigning writes one head, at the end of the memory. -/
theorem setClusterSelector_clone (heads : List MessageHead) (msg : MessageRef) (selector : String) :
    setClusterSelector (clone heads msg).2 (clone heads msg).1 selector =
      heads ++ [((read heads msg).withSelector selector).head] := by
  rw [setClusterSelector, clone, List.modify_eq_take_cons_drop (by simp)]
  simp [read, ClusterMessage.withSelector]

theorem read_clone (heads : List MessageHead) (msg : MessageRef) (selector : String) :
    read (setClusterSelector (clone heads msg).2 (clone heads msg).1 selector) (clone heads msg).1 =
      (read heads msg).withSelector selector := by
  rw [setClusterSelector_clone]
  simp [read, clone, ClusterMessage.withSelector]

end Memory

/-- The messages in memory are those of `ret`, on heads that were not there before. -/
structure Represents (heads : List MessageHead) (s : Selection) (ret : GoMap String ClusterMessage) :
    Prop where
  grown : heads <+: s.heads
  fresh : ∀ port m, s.ret.get port = some m → heads.length ≤ m.head ∧ m.head < s.heads.length
  messages : ∀ port, (s.ret.get port).map (read s.heads) = ret.get port

section Loop

variable {heads : List MessageHead} {msg : MessageRef} {ports : GoMap String (List String)}

/-- One round makes the message of one port. -/
theorem Represents.selectPort {s : Selection} {ret : GoMap String ClusterMessage}
    (h : Represents heads s ret) (hmsg : msg.head < heads.length) (port : String) :
    Represents heads (selectPort msg ports s port)
      (match ports.get port with
        | some subtree => ret.set port ((read heads msg).withSelector (clustersToSelector subtree))
        | none => ret) := by
  unfold ClusterHandler.selectPort
  cases ports.get port with
  | none => exact h
  | some subtree =>
      have hread : read s.heads msg = read heads msg := read_of_prefix h.grown hmsg
      have hgrown : s.heads <+: setClusterSelector (clone s.heads msg).2 (clone s.heads msg).1
          (clustersToSelector subtree) := by
        rw [setClusterSelector_clone]
        exact List.prefix_append _ _
      have hlength : (setClusterSelector (clone s.heads msg).2 (clone s.heads msg).1
          (clustersToSelector subtree)).length = s.heads.length + 1 := by
        rw [setClusterSelector_clone, List.length_append, List.length_singleton]
      refine ⟨h.grown.trans hgrown, ?_, ?_⟩
      · intro port' m hm
        rcases GoMap.get_set_eq_some.mp hm with ⟨-, rfl⟩ | ⟨-, hold⟩
        · refine ⟨h.grown.length_le, ?_⟩
          show s.heads.length < _
          rw [hlength]
          exact Nat.lt_succ_self _
        · obtain ⟨hlow, hhigh⟩ := h.fresh port' m hold
          refine ⟨hlow, ?_⟩
          show m.head < _
          rw [hlength]
          exact Nat.lt_succ_of_lt hhigh
      · intro port'
        by_cases hport : port' = port
        · subst port'
          rw [GoMap.get_set_self, GoMap.get_set_self, Option.map_some, read_clone, hread]
        · -- the messages of the other ports keep their heads
          rw [GoMap.get_set_of_ne _ hport, GoMap.get_set_of_ne _ hport, ← h.messages port']
          refine Option.map_congr fun m hm => ?_
          exact read_of_prefix hgrown (h.fresh port' m hm).2

/-- The messages are those of the function on values. -/
theorem represents_selectChild (re : Regexp) (it : MapOrder String) (r : SubTreeRouter)
    (hmsg : msg.head < heads.length) :
    Represents heads (selectChild re it r heads msg) (OteStack.selectChild re it r (read heads msg)) := by
  unfold selectChild OteStack.selectChild
  generalize portsToSubtreeClusters r (selectedSubTreeClusters re it r (read heads msg)) = ports
  dsimp only
  -- induction on the ports that have been handled, from any state of the loop
  have hloop : ∀ (l : List String) (s : Selection) (ret : GoMap String ClusterMessage),
      Represents heads s ret →
      Represents heads (l.foldl (selectPort msg ports) s) (l.foldl (fun ret port =>
        match ports.get port with
        | some subtree => ret.set port ((read heads msg).withSelector (clustersToSelector subtree))
        | none => ret) ret) := by
    intro l
    induction l with
    | nil => exact fun s ret h => h
    | cons port l ih => exact fun s ret h => ih _ _ (h.selectPort hmsg port)
  exact hloop _ _ _ ⟨List.prefix_rfl, by simp, by simp⟩

end Loop

/-! ## The division -/

/-- The names in the message for a port. -/
def namesFor (s : Selection) (port : String) : List String :=
  match s.ret.get port with
  | none => []
  | some portMsg => split ',' (read s.heads portMsg).head.clusterSelector

theorem nodup_selectedBehind (re : Regexp) (it : MapOrder String) (r : SubTreeRouter)
    (msg : ClusterMessage) (port : String) : (selectedBehind re it r msg port).Nodup := by
  unfold selectedBehind selectedSubTreeClusters
  exact ((it.nodup r).filter _).filter _

section Division

variable {re : Regexp} {it : MapOrder String} {r : SubTreeRouter} {heads : List MessageHead}
  {msg portMsg : MessageRef} {port : String}

/-- The message for a port, which is made if a cluster behind it is selected. -/
theorem message_selectChild (hmsg : msg.head < heads.length)
    (hport : (selectChild re it r heads msg).ret.get port = some portMsg) :
    selectedBehind re it r (read heads msg) port ≠ [] ∧
      read (selectChild re it r heads msg).heads portMsg =
        (read heads msg).withSelector
          (clustersToSelector (selectedBehind re it r (read heads msg) port)) := by
  have hmessages := (represents_selectChild re it r hmsg).messages port
  rw [hport, get_selectChild, Option.map_some] at hmessages
  by_cases hnil : selectedBehind re it r (read heads msg) port = []
  · simp [hnil] at hmessages
  · rw [if_neg hnil] at hmessages
    exact ⟨hnil, Option.some.inj hmessages⟩

/-- The names in the message for a port are the clusters selected behind it. -/
theorem namesFor_selectChild (hr : ∀ k port, r.get k = some port → ',' ∉ k.toList)
    (hmsg : msg.head < heads.length) (port : String) :
    namesFor (selectChild re it r heads msg) port = selectedBehind re it r (read heads msg) port := by
  unfold namesFor
  cases hport : (selectChild re it r heads msg).ret.get port with
  | none =>
      have hmessages := (represents_selectChild re it r hmsg).messages port
      rw [hport, get_selectChild, Option.map_none] at hmessages
      by_contra hne
      rw [if_neg (Ne.symm hne)] at hmessages
      cases hmessages
  | some portMsg =>
      obtain ⟨hnil, hread⟩ := message_selectChild hmsg hport
      dsimp only
      rw [hread, ClusterMessage.withSelector_selector]
      refine split_join hnil fun k hk => ?_
      exact hr k port (mem_selectedBehind.mp hk).1

/-- Distinct names are joined to the empty text if the empty name is the only one. -/
theorem clustersToSelector_eq_empty_iff {l : List String} (hne : l ≠ []) (hnodup : l.Nodup)
    (hl : ∀ k ∈ l, ',' ∉ k.toList) : clustersToSelector l = "" ↔ ∀ k ∈ l, k = "" := by
  constructor
  · intro hempty k hk
    have hsplit : split ',' (clustersToSelector l) = l := split_join hne hl
    rw [hempty] at hsplit
    rw [← hsplit] at hk
    exact List.mem_singleton.mp hk
  · intro hall
    have hrep : l = List.replicate l.length "" := List.eq_replicate_of_mem hall
    have hlen : l.length ≤ 1 := List.nodup_replicate.mp (hrep ▸ hnodup)
    have hone : l.length = 1 := Nat.le_antisymm hlen (List.length_pos_iff.mpr hne)
    rw [hrep, hone]
    rfl

/-- The messages divide the selected clusters of the table: each is named once, in the message for the
port it is routed through, and nothing else is named.  A message differs from the one that came in by its
selector only, which is empty just when the empty name is the only one selected behind the port; and the
messages that were in memory are as they were. -/
theorem selectChild_divides (re : Regexp) (it : MapOrder String) (r : SubTreeRouter)
    (hr : ∀ k port, r.get k = some port → ',' ∉ k.toList) (heads : List MessageHead) (msg : MessageRef)
    (hmsg : msg.head < heads.length) :
    (∀ port k, (namesFor (selectChild re it r heads msg) port).count k =
      if r.get k = some port ∧ (read heads msg).Picks re k then 1 else 0) ∧
    (∀ port portMsg, (selectChild re it r heads msg).ret.get port = some portMsg →
      (∃ selector, read (selectChild re it r heads msg).heads portMsg =
        (read heads msg).withSelector selector) ∧
      ((read (selectChild re it r heads msg).heads portMsg).head.clusterSelector = "" ↔
        ∀ k, r.get k = some port → (read heads msg).Picks re k → k = "")) ∧
    ∀ m : MessageRef, m.head < heads.length →
      read (selectChild re it r heads msg).heads m = read heads m := by
  refine ⟨?_, ?_, ?_⟩
  · intro port k
    rw [namesFor_selectChild hr hmsg]
    by_cases hk : r.get k = some port ∧ (read heads msg).Picks re k
    · rw [if_pos hk]
      exact List.count_eq_one_of_mem (nodup_selectedBehind re it r _ port) (mem_selectedBehind.mpr hk)
    · rw [if_neg hk]
      exact List.count_eq_zero_of_not_mem fun hmem => hk (mem_selectedBehind.mp hmem)
  · intro port portMsg hport
    obtain ⟨hnil, hread⟩ := message_selectChild hmsg hport
    refine ⟨⟨_, hread⟩, ?_⟩
    rw [hread, ClusterMessage.withSelector_selector,
      clustersToSelector_eq_empty_iff hnil (nodup_selectedBehind re it r _ port)
        fun k hk => hr k port (mem_selectedBehind.mp hk).1]
    simp only [mem_selectedBehind, and_imp]
  · intro m hm
    exact read_of_prefix (represents_selectChild re it r hmsg).grown hm

end Division

/-- A table with two clusters behind one child and one behind another. -/
def threeClusters : SubTreeRouter := GoMap.ofList [("a1", "a"), ("a2", "a"), ("b1", "b")]

/-- A memory with the head of a request that selects `a1` and `b1`. -/
def requestHeads : List MessageHead := [⟨"task", .controlReq, "1", "", ""⟩]

/-- The request is divided between the two children, and keeps its selector. -/
theorem selectChild_divides_threeClusters :
    namesFor (selectChild Regexp.anchored MapOrder.sorted threeClusters requestHeads ⟨0, []⟩) "a" = ["a1"] ∧
      ∀ m : MessageRef, m.head < requestHeads.length →
        read (selectChild Regexp.anchored MapOrder.sorted threeClusters requestHeads ⟨0, []⟩).heads m =
          read requestHeads m := by
  have hr : ∀ k ∈ threeClusters.keys, ',' ∉ k.toList := by decide
  exact ⟨by decide, (selectChild_divides Regexp.anchored MapOrder.sorted threeClusters
    (fun k port hk => hr k (GoMap.mem_keys_of_get hk)) requestHeads ⟨0, []⟩ (by decide)).2.2⟩

/-- The empty name has no comma and no blank around it.  As the only cluster behind a child it makes the
selector of the message for the child empty. -/
theorem selectChild_empty_selector :
    ((GoMap.ofList [("", "a")] : SubTreeRouter).get "" = some "a" ∧ ',' ∉ ("" : String).toList ∧
      OteStack.Lib.GoStrings.trimSpace "" = "") ∧
    ((selectChild Regexp.anchored MapOrder.sorted (GoMap.ofList [("", "a")])
      [⟨"task", .controlReq, "", "", ""⟩] ⟨0, []⟩).ret.get "a").map
        (fun portMsg => (read (selectChild Regexp.anchored MapOrder.sorted (GoMap.ofList [("", "a")])
          [⟨"task", .controlReq, "", "", ""⟩] ⟨0, []⟩).heads portMsg).head.clusterSelector) = some "" := by
  decide

end OteStack.ClusterHandler
