/-
# OteStack.ClusterHandler.Neighbors — where the addresses in a controller's tables come from.

A controller passes addresses on without ever looking at them: what its children advertise goes into
`Childs`, what its parent sends as children into `Neighbor` and as neighbours into `ParentNeighbor`, and
its own messages carry `Childs` and `Neighbor` to its children.  So whatever is true of every address
that comes in is true of every address in the tables, in the goroutines that have not finished, and in
the messages that go out.

`Node.Conforms` says this for any properties of peers and addresses, and `Node.Conforms.runTask`,
`Node.Conforms.accessHandler` and `Node.Conforms.handleNeighborRoute` that every step keeps it.
-/
import OteStack.ClusterHandler.Node

namespace OteStack

open OteStack.Lib (GoMap MapOrder)
open OteStack.Lib.TaskPool

/-! ## Conforming tables -/

/-- The children a message lists have one property, the neighbours another.  Nobody reads the third
table of a message. -/
def RouterMessage.Lists (child side : String → Prop) (msg : RouterMessage) : Prop :=
  TableOf child msg.childs ∧ TableOf side msg.neighbor

variable {γ : Type}

/-- What a goroutine carries: a peer, the address it advertises, a message. -/
def Task.Conforms (peer : γ → Prop) (child side : String → Prop) : Task γ → Prop
  | .checking cr conn => peer conn ∧ child cr.listen
  | .upgrading cr conn => peer conn ∧ child cr.listen
  | .connecting cr conn => peer conn ∧ child cr.listen
  | .connected cr conn => peer conn ∧ child cr.listen
  | .announcing cr conn => peer conn ∧ child cr.listen
  | .reading cr conn => peer conn ∧ child cr.listen
  | .closing cr conn => peer conn ∧ child cr.listen
  | .broadcast msg => msg.Lists child side
  | .write conn msg => peer conn ∧ msg.Lists child side
  | _ => True

/-- The peers of the controller have the property `peer`, and the addresses of its children, its
neighbours and its parent's neighbours have the properties `child`, `side` and `above`. -/
structure Node.Conforms (s : Node γ) (peer : γ → Prop) (child side above : String → Prop) : Prop where
  clients : ∀ k conn, s.clients.get k = some conn → peer conn
  childs : ∀ k addr, s.router.childs.get k = some addr → child addr
  neighbor : TableOf side s.router.neighbor
  parentNeighbor : TableOf above s.router.parentNeighbor
  tasks : ∀ t ∈ s.tasks, t.Conforms peer child side

variable {peer : γ → Prop} {child side above : String → Prop} {s : Node γ}

theorem Node.conforms_init : (Node.init γ).Conforms peer child side above where
  clients k conn h := by simp [Node.init] at h
  childs k addr h := by simp [Node.init, defaultClusterRouter] at h
  neighbor m h := by cases h
  parentNeighbor m h := by cases h
  tasks t h := by cases h

namespace Node.Conforms

/-- What the controller tells its children. -/
theorem message (h : s.Conforms peer child side above) :
    s.router.neighborRouterMessage.Lists child side := by
  refine ⟨?_, h.neighbor⟩
  rintro m ⟨⟩
  exact h.childs

/-! ## Steps -/

/-- A request of a peer that may be admitted. -/
theorem accessHandler (h : s.Conforms peer child side above) (conf : HandlerConf)
    (cluster name : String) {listenAddr : String} (now : Int) {conn : γ} (hpeer : peer conn)
    (hchild : child listenAddr) :
    (s.accessHandler conf cluster name listenAddr now conn).Conforms peer child side above := by
  unfold Node.accessHandler
  split
  · exact h
  · split
    · exact h
    · split
      · exact h
      · split
        · exact h
        · refine ⟨h.clients, h.childs, h.neighbor, h.parentNeighbor, ?_⟩
          intro t ht
          rcases List.mem_cons.mp ht with rfl | ht
          · exact ⟨hpeer, hchild⟩
          · exact h.tasks t ht

/-- A message of the parent, whose children are the neighbours here and whose neighbours are the
parent's neighbours. -/
theorem handleNeighborRoute (h : s.Conforms peer child side above) {msg : RouterMessage}
    (hmsg : msg.Lists side above) :
    (s.handleNeighborRoute (some msg)).Conforms peer child side above := by
  have hrouter := s.router.updateRouter_some msg
  refine ⟨h.clients, ?_, ?_, ?_, ?_⟩
  · show ∀ k addr, (s.router.updateRouter (some msg)).1.childs.get k = some addr → child addr
    rw [hrouter]
    exact h.childs
  · show TableOf side (s.router.updateRouter (some msg)).1.neighbor
    rw [hrouter]
    exact hmsg.1
  · show TableOf above (s.router.updateRouter (some msg)).1.parentNeighbor
    rw [hrouter]
    exact hmsg.2
  · intro t ht
    rcases List.mem_append.mp ht with ht | ht
    · obtain ⟨notice, hnotice, rfl⟩ := Option.map_eq_some_iff.mp (Option.mem_toList.mp ht)
      rw [ClusterRouter.updateRouter_message hnotice]
      refine ⟨?_, hmsg.1⟩
      rintro m ⟨⟩
      exact h.childs
    · exact h.tasks t ht

/-! ### Writes of single tables -/

theorem setClient (h : s.Conforms peer child side above) (name : String) {conn : γ}
    (hpeer : peer conn) :
    { s with clients := s.clients.set name conn }.Conforms peer child side above := by
  refine ⟨?_, h.childs, h.neighbor, h.parentNeighbor, h.tasks⟩
  intro k conn' hk
  change (s.clients.set name conn).get k = some conn' at hk
  rcases GoMap.get_set_eq_some.mp hk with ⟨-, rfl⟩ | ⟨-, hk⟩
  · exact hpeer
  · exact h.clients k conn' hk

theorem deleteClient (h : s.Conforms peer child side above) (name : String) :
    { s with clients := s.clients.delete name }.Conforms peer child side above := by
  refine ⟨?_, h.childs, h.neighbor, h.parentNeighbor, h.tasks⟩
  exact fun k conn hk => h.clients k conn (GoMap.get_of_get_delete hk)

theorem addChild (h : s.Conforms peer child side above) {name listen : String}
    (hchild : child listen) {router : ClusterRouter}
    (hok : s.router.addChild name listen = .ok router) :
    { s with router := router }.Conforms peer child side above := by
  rw [(ClusterRouter.get_childs_of_addChild hok).2]
  refine ⟨h.clients, ?_, h.neighbor, h.parentNeighbor, h.tasks⟩
  intro k addr hk
  change (s.router.childs.set name listen).get k = some addr at hk
  rcases GoMap.get_set_eq_some.mp hk with ⟨-, rfl⟩ | ⟨-, hk⟩
  · exact hchild
  · exact h.childs k addr hk

theorem delChild (h : s.Conforms peer child side above) (name : String) :
    { s with router := s.router.delChild name }.Conforms peer child side above := by
  refine ⟨h.clients, ?_, ?_, ?_, h.tasks⟩
  · intro k addr hk
    change (s.router.delChild name).childs.get k = some addr at hk
    rw [ClusterRouter.get_childs_delChild] at hk
    split at hk
    · cases hk
    · exact h.childs k addr hk
  · show TableOf side (s.router.delChild name).neighbor
    rw [ClusterRouter.delChild_neighbor]
    exact h.neighbor
  · show TableOf above (s.router.delChild name).parentNeighbor
    rw [ClusterRouter.delChild_parentNeighbor]
    exact h.parentNeighbor

theorem setSubtreeRouter (h : s.Conforms peer child side above) (subtreeRouter : SubTreeRouter) :
    { s with router := { s.router with subtreeRouter := subtreeRouter } }.Conforms peer child side
      above := ⟨h.clients, h.childs, h.neighbor, h.parentNeighbor, h.tasks⟩

/-! ### Goroutines -/

variable [DecidableEq γ]

theorem replace (h : s.Conforms peer child side above) (t : Task γ) (new : List (Task γ))
    (hnew : ∀ u ∈ new, u.Conforms peer child side) :
    (s.replace t new).Conforms peer child side above := by
  refine ⟨h.clients, h.childs, h.neighbor, h.parentNeighbor, ?_⟩
  intro u hu
  rcases of_mem_swap hu with hu | hu
  · exact hnew u hu
  · exact h.tasks u hu

theorem handle (h : s.Conforms peer child side above) (c : Choice) (t : Task γ) (hd : Handling)
    {goOn : Handling → Task γ} (hgo : ∀ hd, (goOn hd).Conforms peer child side) :
    (s.handle c t hd goOn).Conforms peer child side above := by
  refine (h.setSubtreeRouter _).replace t _ fun u hu => ?_
  obtain ⟨hd', rfl⟩ := Node.of_mem_rest hu
  exact hgo hd'

/-- Every goroutine passes on what it was given. -/
theorem runTask (h : s.Conforms peer child side above) (conf : HandlerConf) (c : Choice)
    {t : Task γ} (ht : t ∈ s.tasks) :
    (s.runTask conf c t).Conforms peer child side above := by
  have hself := h.tasks t ht
  cases t with
  | checking cr conn =>
      simp only [Node.runTask]
      split
      · exact h.replace _ _ (by simp)
      · exact h.replace _ _ (by simpa [Task.Conforms] using hself)
  | upgrading cr conn =>
      simp only [Node.runTask]
      split
      · exact h.replace _ _ (by simpa [Task.Conforms] using hself)
      · exact h.replace _ _ (by simp)
  | connecting cr conn =>
      simp only [Node.runTask]
      split
      · exact h.replace _ _ (by simp)
      · exact (h.setClient cr.name hself.1).replace _ _ (by simpa [Task.Conforms] using hself)
  | connected cr conn =>
      simp only [Node.runTask]
      split
      · rename_i hok
        exact (h.addChild hself.2 hok).replace _ _ (by simpa [Task.Conforms] using hself)
      · exact h.replace _ _ (by simpa [Task.Conforms] using hself)
  | announcing cr conn =>
      refine h.replace _ _ fun u hu => ?_
      rcases List.mem_pair.mp hu with rfl | rfl
      · exact hself
      · exact h.message
  | reading cr conn => exact h.replace _ _ (by simpa [Task.Conforms] using hself)
  | closing cr conn => exact (h.deleteClient cr.name).replace _ _ (by simp)
  | closeChild cr => exact (h.delChild cr.name).replace _ _ (by simp [Task.Conforms])
  | closed cr =>
      refine h.replace _ _ fun u hu => ?_
      rcases List.mem_pair.mp hu with rfl | rfl
      · exact h.message
      · trivial
  | handler hd => exact h.handle c _ hd fun _ => trivial
  | worker hd => exact h.handle c _ hd fun _ => trivial
  | broadcast msg =>
      refine h.replace _ _ fun u hu => ?_
      obtain ⟨name, conn, hconn, rfl⟩ := Node.of_mem_writes hu
      exact ⟨h.clients name conn hconn, hself⟩
  | write conn msg => exact h.replace _ _ (by simp)

end Node.Conforms

end OteStack
