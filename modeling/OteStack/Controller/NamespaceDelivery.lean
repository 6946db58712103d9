/-
# OteStack.Controller.NamespaceDelivery — the namespaces reach a cluster whose path is left alone.

The system of `OteStack.Controller.NamespaceSync`, with clusters that come and go, tables that change and
messages that are lost, looked at from one cluster and the path from the root to it.

While the connections of the path stand, its routes are kept and no message on it is lost or overtaken by its
answer, a namespace and the record of the cluster lead to the namespace in the cluster, in whatever order they
were made, and whatever happens elsewhere (`namespace_reaches_cluster`).  The manager must be told of both,
and get the list of the namespaces for the cluster.  One thing is needed of the cluster's parent: it must have
stored the connection when it handles the registration, which `checkClusterName` starts before that.

The order of two calls of `handleRegistClusterMessage` carries the proof: a cluster enters the route before it
passes the registration on, so that a registration on its way up has left a routed path behind it.
-/
import OteStack.Controller.NamespaceSync

namespace OteStack.NamespaceSync

open OteStack.Lib (GoMap Worklist runSteps runSteps_cons StepsMeet runSteps_invariant_of_meet)
open SubTreeRouter

variable {re : Regexp} {root : String} {s s' : State} {a : Action}

/-! ## The path to a cluster -/

/-- The clusters from the root down to `y`. -/
structure IsPath (root y : String) (path : List String) : Prop where
  nodup : path.Nodup
  head : path.head? = some root
  last : path.getLast? = some y
  ne : root ≠ y

section Path

variable {y c d p : String} {path t : List String}

theorem suffix_unique (hnodup : path.Nodup) {l : List String} (h : l ++ c :: t = path)
    (l' t' : List String) (h' : l' ++ c :: t' = path) : l = l' := by
  subst h'
  have hl' := List.nodup_append.mp hnodup
  have hnot : c ∉ l' := fun hc => hl'.2.2 c hc c List.mem_cons_self rfl
  rw [eq_comm, List.append_cons_inj_of_notMem hnot (List.nodup_cons.mp hl'.2.1).1] at h
  exact h.1.symm

/-- What is above a cluster of the path is unique. -/
theorem cons_suffix_of_infix (hnodup : path.Nodup) (h : (c :: t) <:+ path) (hlink : [p, c] <:+: path) :
    (p :: c :: t) <:+ path := by
  obtain ⟨l, hl⟩ := h
  obtain ⟨l₁, l₂, hl₁⟩ := hlink
  have heq : l = l₁ ++ [p] := by
    refine suffix_unique hnodup hl (l₁ ++ [p]) l₂ ?_
    rw [← hl₁]
    simp
  exact ⟨l₁, by rw [← hl, heq]; simp⟩

theorem IsPath.eq_of_root (hpath : IsPath root y path) (h : (root :: t) <:+ path) : root :: t = path := by
  obtain ⟨l, hl⟩ := h
  obtain ⟨rest, hrest⟩ := List.head?_eq_some_iff.mp hpath.head
  have hnil : l = [] := suffix_unique hpath.nodup hl [] rest hrest.symm
  rw [← hl, hnil, List.nil_append]

theorem IsPath.eq_of_last (hpath : IsPath root y path) (h : [c] <:+ path) : c = y := by
  obtain ⟨l, rfl⟩ := h
  simpa using hpath.last

/-- The path goes on below the root. -/
theorem IsPath.exists_cons (hpath : IsPath root y path) : ∃ d t, path = root :: d :: t := by
  obtain ⟨rest, hrest⟩ := List.head?_eq_some_iff.mp hpath.head
  cases rest with
  | nil => exact absurd (hpath.eq_of_last ⟨[], by rw [hrest]; rfl⟩) hpath.ne
  | cons d t => exact ⟨d, t, hrest⟩

end Path

/-- Every cluster of the path has the next one connected, and routes `y` through it. -/
def Routed (s : State) (y : String) (path : List String) : Prop :=
  ∀ c d, [c, d] <:+: path → (s.tables c).get y = some d ∧ (c, d) ∈ s.connected

theorem Routed.cons {y c d : String} {t : List String} (h : Routed s y (d :: t))
    (hroute : (s.tables c).get y = some d) (hconn : (c, d) ∈ s.connected) : Routed s y (c :: d :: t) := by
  intro c' d' hlink
  rcases List.infix_cons_iff.mp hlink with hfirst | hrest
  · simp only [List.cons_prefix_cons, List.nil_prefix, and_true] at hfirst
    obtain ⟨rfl, rfl⟩ := hfirst
    exact ⟨hroute, hconn⟩
  · exact h c' d' hrest

/-- The routes to `y` and the connections of the path are as good as before. -/
structure Kept (y : String) (path : List String) (s s' : State) : Prop where
  route : ∀ c ∈ path, ∀ d, (s.tables c).get y = some d → (s'.tables c).get y = some d
  link : ∀ c d, [c, d] <:+: path → (c, d) ∈ s.connected → (c, d) ∈ s'.connected

theorem Routed.mono {y : String} {path t : List String} (hkept : Kept y path s s') (ht : t <:+ path)
    (h : Routed s y t) : Routed s' y t := by
  intro c d hlink
  have hpath : [c, d] <:+: path := hlink.trans ht.isInfix
  obtain ⟨hroute, hconn⟩ := h c d hlink
  exact ⟨hkept.route c (hpath.subset List.mem_cons_self) d hroute, hkept.link c d hpath hconn⟩

/-- Nothing happens to the path of `y`: its clusters connect to the parents they have on it and stay
connected, keep their routes to `y`, lose no message and let no answer overtake one.  The parent of `y` handles
the registration of `y` when it has stored the connection.  The informers notice that `n` and the record of `y`
are created, and the apiserver lists the namespaces for `y`. -/
def Undisturbed (y n : String) (path : List String) (s : State) : Action → Prop
  | .createNamespace name created => name = n → created ≠ .unnoticed
  | .clusterAdded cluster failure => cluster = y → failure = none
  | .connect parent child => child ∈ path → [parent, child] <:+: path
  | .disconnect parent child => ¬ [parent, child] <:+: path
  | .checkClusterName parent child => child = y → [parent, child] <:+: path
  | .handleRegist i _ created => ∀ r ∈ s.registrations[i]?, r.name = y →
      (r.client = y → (r.handler, y) ∈ s.connected) ∧ created ≠ .unnoticed
  | .delRoute it cluster dest port =>
      cluster ∈ path → (delRoute it (s.tables cluster) dest port).get y = (s.tables cluster).get y
  | .handle ch i =>
      ∀ f ∈ s.pool.tasks[i]?, f.hop.cluster.name ∈ path → ch.lost = false ∧ ch.taken = .asRequest
  | _ => True

section Served

variable {y n : String} {path : List String}

/-- A table that keeps its route to `y`. -/
theorem Kept.setTable {c : String} {table : SubTreeRouter}
    (htable : c ∈ path → ∀ d, (s.tables c).get y = some d → table.get y = some d)
    (htables : s'.tables = Function.update s.tables c table) (hconn : s'.connected = s.connected) :
    Kept y path s s' where
  route b hb d hd := by
    rw [htables]
    by_cases hbc : b = c
    · subst hbc
      simpa using htable hb d hd
    · simpa [hbc] using hd
  link b d _ h := by rw [hconn]; exact h

theorem route_of_addRoute {r table : SubTreeRouter} {dest port : String}
    (h : addRoute r dest port = .ok table) : table.get dest = some port := by
  unfold addRoute at h
  cases hdest : r.get dest with
  | none =>
      simp only [hdest, Except.ok.injEq] at h
      rw [← h, GoMap.get_set_self]
  | some old =>
      simp only [hdest] at h
      split at h
      · cases h
      · rename_i hport
        obtain rfl := Except.ok.inj h
        rw [hdest, not_not.mp hport]

theorem keeps_route_of_addRoute {r table : SubTreeRouter} {dest port : String}
    (h : addRoute r dest port = .ok table) {k d : String} (hk : r.get k = some d) : table.get k = some d :=
  afterAddRoute_of_ok h ▸ get_afterAddRoute_of_some hk

/-- What the record of a cluster leaves alone. -/
theorem createOrUpdateCluster_tables (name : String) (created : Creation) :
    (s.createOrUpdateCluster name created).tables = s.tables ∧
      (s.createOrUpdateCluster name created).connected = s.connected ∧
      (s.createOrUpdateCluster name created).registrations = s.registrations := by
  unfold State.createOrUpdateCluster
  split
  · exact ⟨rfl, rfl, rfl⟩
  · exact ⟨rfl, rfl, rfl⟩

theorem createOrUpdateCluster_namespaces (name : String) (created : Creation) :
    (s.createOrUpdateCluster name created).pool = s.pool ∧
      (s.createOrUpdateCluster name created).namespaces = s.namespaces ∧
      (s.createOrUpdateCluster name created).namespaceEvents = s.namespaceEvents := by
  unfold State.createOrUpdateCluster
  split
  · exact ⟨rfl, rfl, rfl⟩
  · exact ⟨rfl, rfl, rfl⟩

theorem kept_of_step (hok : Undisturbed y n path s a) (h : step re root s a = some s') : Kept y path s s' := by
  cases transition_of_step h
  case connect => exact ⟨fun _ _ _ h => h, fun _ _ _ h => List.mem_cons_of_mem _ h⟩
  case disconnect =>
    refine ⟨fun _ _ _ h => h, fun c d hlink hcd => List.mem_filter.mpr ⟨hcd, ?_⟩⟩
    simp only [decide_eq_true_eq]
    intro heq
    obtain ⟨rfl, rfl⟩ := Prod.mk.inj heq
    exact hok hlink
  case recorded htable =>
    exact Kept.setTable (fun _ _ => keeps_route_of_addRoute htable) (createOrUpdateCluster_tables _ _).1
      (createOrUpdateCluster_tables _ _).2.1
  case ended htable =>
    exact Kept.setTable (fun _ _ => keeps_route_of_addRoute htable) rfl rfl
  case passed htable =>
    exact Kept.setTable (fun _ _ => keeps_route_of_addRoute htable) rfl rfl
  case addRoute => exact Kept.setTable (fun _ _ => get_afterAddRoute_of_some) rfl rfl
  case delRoute =>
    refine Kept.setTable (fun hc d hd => ?_) rfl rfl
    rw [hok hc]
    exact hd
  -- the other steps change neither a table nor a connection
  all_goals exact ⟨fun _ _ _ h => h, fun _ _ _ h => h⟩

/-! ## On the way down -/

/-- A message that brings `n` and is at a cluster of the path, `k` handlings away from the shim of `y`. -/
def Heading (re : Regexp) (y n : String) (path : List String) (k : ℕ) (f : Flight) : Prop :=
  n ∈ f.task.posted ∧ match f.hop with
    | .tunnel c m => m.Picks re y ∧ m.IsControl ∧ ∃ t, (c.name :: t) <:+ path ∧ k = 2 * t.length + 1
    | .dispatch c m => m.Picks re y ∧ m.IsControl ∧ ∃ d t, (c.name :: d :: t) <:+ path ∧ k = 2 * t.length + 2

theorem command_ne_of_isControl {m : ClusterMessage} (h : m.IsControl) : m.head.command ≠ .neighborRoute := by
  rcases h with h | h
  · simp [h]
  · simp [h]

/-- The shim of `y` gets a message that has come down to it. -/
theorem emit_last {ch : Choice} {task : NamespaceTask} {c : Cluster} {m : ClusterMessage}
    (hn : n ∈ task.posted) (hpick : m.Picks re c.name) (hcontrol : m.IsControl) (hlost : ch.lost = false) :
    (c.name, n) ∈ (work re s.node).emit ch ⟨.tunnel c m, task⟩ := by
  simp [work, hlost, hpick, hcontrol, hn]

/-- A message goes on from the edge handler to the cluster handler as it came. -/
theorem mem_spawn_tunnel {ch : Choice} {task : NamespaceTask} {c : Cluster} {m : ClusterMessage}
    (hlost : ch.lost = false) (htaken : ch.taken = .asRequest) :
    ⟨.dispatch c m, task⟩ ∈ (work re s.node).spawn ch ⟨.tunnel c m, task⟩ := by
  simp only [work, hlost, htaken, Taken.message]
  split
  · exact absurd ‹_› Bool.false_ne_true
  · split
    · exact List.mem_singleton_self _
    · exact List.mem_singleton_self _

/-- A cluster of the path passes the message on to the next one. -/
theorem exists_mem_spawn_dispatch {ch : Choice} (hlost : ch.lost = false) (task : NamespaceTask) (hs : Named s)
    (hrouted : Routed s y path) {c : Cluster} {m : ClusterMessage} (hpick : m.Picks re y)
    (hcontrol : m.IsControl) {d : String} {t : List String} (hplace : (c.name :: d :: t) <:+ path) :
    ∃ m', ⟨.tunnel (leaf d) m', task⟩ ∈ (work re s.node).spawn ch ⟨.dispatch c m, task⟩ ∧
      m'.Picks re y ∧ m'.IsControl := by
  have hfirst : [c.name, d] <:+: c.name :: d :: t := ⟨[], t, rfl⟩
  obtain ⟨hroute, hconn⟩ := hrouted c.name d (hfirst.trans hplace.isInfix)
  obtain ⟨sel, hmem, hpick'⟩ :=
    exists_forward ch.it hs (command_ne_of_isControl hcontrol) hroute hconn hpick
  refine ⟨m.withSelector sel, ?_, hpick', hcontrol⟩
  simp only [work, hlost, Bool.false_eq_true, if_false]
  exact List.mem_map.mpr ⟨_, hmem, rfl⟩

/-- A message on its way to `y` arrives or comes closer. -/
theorem heading_kept (hs : Named s) (hpath : IsPath root y path) (hrouted : Routed s y path) {ch : Choice}
    {f : Flight} (hok : f.hop.cluster.name ∈ path → ch.lost = false ∧ ch.taken = .asRequest) {k : ℕ}
    (h : Heading re y n path k f) :
    (y, n) ∈ (work re s.node).emit ch f ∨
      ∃ f' ∈ (work re s.node).spawn ch f, ∃ j < k, Heading re y n path j f' := by
  obtain ⟨hop, task⟩ := f
  cases hop with
  | tunnel c m =>
      obtain ⟨hn, hpick, hcontrol, t, hplace, hk⟩ := h
      obtain ⟨hlost, htaken⟩ := hok (hplace.subset List.mem_cons_self)
      cases t with
      | nil =>
          obtain rfl : c.name = y := hpath.eq_of_last hplace
          exact Or.inl (emit_last hn hpick hcontrol hlost)
      | cons d t =>
          refine Or.inr ⟨_, mem_spawn_tunnel hlost htaken, 2 * t.length + 2, ?_, ?_⟩
          · rw [hk, List.length_cons]
            omega
          · exact ⟨hn, hpick, hcontrol, d, t, hplace, rfl⟩
  | dispatch c m =>
      obtain ⟨hn, hpick, hcontrol, d, t, hplace, hk⟩ := h
      obtain ⟨m', hmem, hpick', hcontrol'⟩ :=
        exists_mem_spawn_dispatch (hok (hplace.subset List.mem_cons_self)).1 task hs hrouted hpick hcontrol
          hplace
      refine Or.inr ⟨_, hmem, 2 * t.length + 1, by omega, hn, hpick', hcontrol', t, ?_, rfl⟩
      exact (List.suffix_cons c.name (d :: t)).trans hplace

/-- No message is further away than the path is long. -/
theorem Heading.le {k : ℕ} {f : Flight} (h : Heading re y n path k f) : k + 1 ≤ 2 * path.length := by
  obtain ⟨hop, task⟩ := f
  cases hop with
  | tunnel c m =>
      obtain ⟨-, -, -, t, hplace, rfl⟩ := h
      have hlen := hplace.length_le
      rw [List.length_cons] at hlen
      omega
  | dispatch c m =>
      obtain ⟨-, -, -, d, t, hplace, rfl⟩ := h
      have hlen := hplace.length_le
      simp only [List.length_cons] at hlen
      omega

/-! ## What a cluster is owed -/

/-- The namespace has reached `y` or is on its way to it. -/
def OnTheWay (re : Regexp) (y n : String) (path : List String)
    (pool : Worklist.Pool Flight (String × String)) : Prop :=
  (∃ o ∈ pool.log, o = (y, n)) ∨ ∃ f ∈ pool.tasks, ∃ k, Heading re y n path k f

/-- What holds in a run that leaves the path alone.  A registration of `y` has left a routed path behind it,
the record of `y` is written when the whole path is routed, and a namespace of the centre has reached `y`,
is on its way, or is about to be sent. -/
structure Served (re : Regexp) (y n : String) (path : List String) (s : State) : Prop where
  named : Named s
  links : ∀ c d, (c, d) ∈ s.connected → d ∈ path → [c, d] <:+: path
  climbing : ∀ r ∈ s.registrations, r.name = y →
    (r.client = y ∨ (r.handler, r.client) ∈ s.connected) ∧
      ∃ t, (r.handler :: r.client :: t) <:+ path ∧ Routed s y (r.client :: t)
  known : y ∈ s.clusters → Routed s y path
  owed : y ∈ s.clusters → n ∈ s.namespaces →
    OnTheWay re y n path s.pool ∨ n ∈ s.namespaceEvents ∨ y ∈ s.clusterEvents

theorem heading_controllerMsgHandler (hpath : IsPath root y path) {sent : ClusterMessage × NamespaceTask}
    (hn : n ∈ sent.2.posted) (hcontrol : sent.1.IsControl) (hparent : sent.1.head.parentClusterName = "")
    (hpick : sent.1.Picks re y) : ∃ k, Heading re y n path k (controllerMsgHandler root sent) := by
  obtain ⟨d, t, hcons⟩ := hpath.exists_cons
  simp only [Heading, controllerMsgHandler, ClusterMessage.withParent, if_pos hparent]
  exact ⟨_, hn, hpick, hcontrol, d, t, by rw [hcons]; exact List.suffix_rfl, rfl⟩

theorem exists_heading_sendNamespaceToCluster (hpath : IsPath root y path) (hy : IsClusterName y) :
    ∃ k, Heading re y n path k (controllerMsgHandler root (sendNamespaceToCluster n)) := by
  refine heading_controllerMsgHandler hpath (by simp) (Or.inl rfl) rfl ?_
  have hempty : IsClusterName "" := by decide
  exact (picks_of_selector rfl hempty y).mpr (matchString_empty hy)

theorem exists_heading_namespaceListMessage (hpath : IsPath root y path) (hy : IsClusterName y)
    {l : List String} (hn : n ∈ l) :
    ∃ k, Heading re y n path k (controllerMsgHandler root (namespaceListMessage y l)) := by
  refine heading_controllerMsgHandler hpath (by simpa using hn) (Or.inr rfl) rfl ?_
  exact (picks_of_selector rfl hy y).mpr (matchString_self re hy)

theorem Served.links_step (hs : Served re y n path s) (hok : Undisturbed y n path s a)
    (h : step re root s a = some s') : ∀ c d, (c, d) ∈ s'.connected → d ∈ path → [c, d] <:+: path := by
  cases transition_of_step h
  case connect =>
    intro c d hcd hd
    rcases List.mem_cons.mp hcd with heq | hcd
    · obtain ⟨rfl, rfl⟩ := Prod.mk.inj heq
      exact hok hd
    · exact hs.links c d hcd hd
  case disconnect => exact fun c d hcd => hs.links c d (List.mem_filter.mp hcd).1
  case recorded =>
    rw [(createOrUpdateCluster_tables _ _).2.1]
    exact hs.links
  all_goals exact hs.links

/-- What is left behind by a registration that is on its way stays. -/
theorem Served.climbing_mono (hs : Served re y n path s) (hkept : Kept y path s s') {r : Registration}
    (hr : r ∈ s.registrations) (hname : r.name = y) :
    (r.client = y ∨ (r.handler, r.client) ∈ s'.connected) ∧
      ∃ t, (r.handler :: r.client :: t) <:+ path ∧ Routed s' y (r.client :: t) := by
  obtain ⟨hconn, t, hplace, hrouted⟩ := hs.climbing r hr hname
  have hfirst : [r.handler, r.client] <:+: r.handler :: r.client :: t := ⟨[], t, rfl⟩
  refine ⟨hconn.imp_right (hkept.link _ _ (hfirst.trans hplace.isInfix)), t, hplace, ?_⟩
  exact hrouted.mono hkept ((List.suffix_cons _ _).trans hplace)

/-- A cluster that has entered the route of a registration is routed down to `y`. -/
theorem Served.routed_of_regist (hs : Served re y n path s) (hkept : Kept y path s s') {i : ℕ}
    {parent : Option String} {created : Creation}
    (hok : Undisturbed y n path s (.handleRegist i parent created)) {r : Registration}
    (hr : s.registrations[i]? = some r) (hname : r.name = y) {table : SubTreeRouter}
    (htable : SubTreeRouter.addRoute (s.tables r.handler) r.name r.client = .ok table)
    (htables : s'.tables = Function.update s.tables r.handler table) :
    ∃ t, (r.handler :: r.client :: t) <:+ path ∧ Routed s' y (r.handler :: r.client :: t) := by
  obtain ⟨hconn, t, hplace, hrouted⟩ := hs.climbing_mono hkept (List.mem_of_getElem? hr) hname
  have hfirst : [r.handler, r.client] <:+: r.handler :: r.client :: t := ⟨[], t, rfl⟩
  refine ⟨t, hplace, hrouted.cons ?_ ?_⟩
  · rw [htables, Function.update_self, ← hname]
    exact route_of_addRoute htable
  · rcases hconn with hclient | hconn
    · rw [hclient] at hfirst ⊢
      rw [hclient] at hplace
      exact hkept.link _ _ (hfirst.trans hplace.isInfix) ((hok r hr hname).1 hclient)
    · exact hconn

theorem routed_singleton (y c : String) : Routed s y [c] := by
  intro a b hlink
  exact absurd hlink.length_le (by simp)

theorem Served.climbing_step (hpath : IsPath root y path) (hs : Served re y n path s)
    (hok : Undisturbed y n path s a) (h : step re root s a = some s') :
    ∀ r ∈ s'.registrations, r.name = y → (r.client = y ∨ (r.handler, r.client) ∈ s'.connected) ∧
      ∃ t, (r.handler :: r.client :: t) <:+ path ∧ Routed s' y (r.client :: t) := by
  have hkept := kept_of_step hok h
  have hold : ∀ r ∈ s.registrations, r.name = y → _ := fun r => hs.climbing_mono hkept
  cases transition_of_step h
  case checkClusterName parent child hchild =>
    intro r hr hname
    rcases List.mem_cons.mp hr with rfl | hr
    · obtain rfl : child = y := hname
      obtain ⟨l, hl⟩ := List.getLast?_eq_some_iff.mp hpath.last
      have hlast : [child] <:+ path := ⟨l, hl.symm⟩
      exact ⟨Or.inl rfl, [], cons_suffix_of_infix hpath.nodup hlast (hok rfl), routed_singleton _ _⟩
    · exact hold r hr hname
  case refused => exact fun r hr => hold r (List.mem_of_mem_eraseIdx hr)
  case recorded =>
    rw [(createOrUpdateCluster_tables _ _).2.2]
    exact fun r hr => hold r (List.mem_of_mem_eraseIdx hr)
  case ended => exact fun r hr => hold r (List.mem_of_mem_eraseIdx hr)
  case passed i p created r hr hp table htable =>
    intro r' hr' hname
    rcases List.mem_cons.mp hr' with rfl | hr'
    · obtain ⟨t, hplace, hrouted⟩ := hs.routed_of_regist hkept hok hr hname htable rfl
      have hlink : [p, r.handler] <:+: path := hs.links _ _ hp (hplace.subset List.mem_cons_self)
      exact ⟨Or.inr hp, _, cons_suffix_of_infix hpath.nodup hplace hlink, hrouted⟩
    · exact hold r' (List.mem_of_mem_eraseIdx hr') hname
  all_goals exact hold

/-- A record that is new is an event, if the informer notices it. -/
theorem mem_createOrUpdateCluster {name : String} {created : Creation}
    (h : y ∈ (s.createOrUpdateCluster name created).clusters) :
    y ∈ s.clusters ∨
      y = name ∧ (created ≠ .unnoticed → y ∈ (s.createOrUpdateCluster name created).clusterEvents) := by
  unfold State.createOrUpdateCluster at h ⊢
  split at h
  · exact Or.inl h
  · rename_i hname
    rw [if_neg hname]
    by_cases hy : y ∈ s.clusters
    · exact Or.inl hy
    · exact Or.inr ⟨(Creation.mem_names h).resolve_left hy, Creation.mem_events_of_new h hy⟩

/-- Events that are to be handled stay. -/
theorem mem_clusterEvents_createOrUpdateCluster (h : y ∈ s.clusterEvents) (name : String)
    (created : Creation) : y ∈ (s.createOrUpdateCluster name created).clusterEvents := by
  unfold State.createOrUpdateCluster
  split
  · exact h
  · exact Creation.mem_events_of_mem h created name

theorem Served.known_step (hpath : IsPath root y path) (hs : Served re y n path s)
    (hok : Undisturbed y n path s a) (h : step re root s a = some s') : y ∈ s'.clusters → Routed s' y path := by
  have hkept := kept_of_step hok h
  have hold : y ∈ s.clusters → Routed s' y path := fun hy => (hs.known hy).mono hkept List.suffix_rfl
  cases transition_of_step h
  case deleteCluster => exact fun hy => hold (List.mem_filter.mp hy).1
  case recorded hr hroot _ htable =>
    intro hy
    subst hroot
    rcases mem_createOrUpdateCluster hy with hy | ⟨hname, -⟩
    · exact hold hy
    · obtain ⟨t, hplace, hrouted⟩ := hs.routed_of_regist hkept hok hr hname.symm htable
        (createOrUpdateCluster_tables _ _).1
      rwa [hpath.eq_of_root hplace] at hrouted
  all_goals exact hold

theorem onTheWay_send {f : Flight} (hf : ∃ k, Heading re y n path k f) :
    OnTheWay re y n path (s.send f).pool :=
  Or.inr ⟨f, List.mem_append_right _ (List.mem_singleton_self f), hf⟩

theorem OnTheWay.send (h : OnTheWay re y n path s.pool) (f : Flight) :
    OnTheWay re y n path (s.send f).pool := by
  refine h.imp_right ?_
  rintro ⟨g, hg, hheading⟩
  exact ⟨g, List.mem_append_left _ hg, hheading⟩

theorem Served.owed_step (hpath : IsPath root y path) (hs : Served re y n path s)
    (hok : Undisturbed y n path s a) (h : step re root s a = some s') (hy : y ∈ s'.clusters)
    (hn : n ∈ s'.namespaces) :
    OnTheWay re y n path s'.pool ∨ n ∈ s'.namespaceEvents ∨ y ∈ s'.clusterEvents := by
  cases transition_of_step h
  case createNamespace name created hname =>
    by_cases hold : n ∈ s.namespaces
    · exact (hs.owed hy hold).imp_right (Or.imp_left fun h => Creation.mem_events_of_mem h created name)
    · have hnew : n = name := (Creation.mem_names hn).resolve_left hold
      exact Or.inr (Or.inl (Creation.mem_events_of_new hn hold (hok hnew.symm)))
  case deleteNamespace => exact hs.owed hy (List.mem_filter.mp hn).1
  case deleteCluster => exact hs.owed (List.mem_filter.mp hy).1 hn
  case restart => exact Or.inr (Or.inl hn)
  case namespaceAdded name hname =>
    by_cases heq : n = name
    · subst heq
      exact Or.inl (onTheWay_send (exists_heading_sendNamespaceToCluster hpath (hs.named.clusters y hy)))
    · rcases hs.owed hy hn with hway | hevents | hevents
      · exact Or.inl (OnTheWay.send (s := { s with namespaceEvents := s.namespaceEvents.erase name }) hway _)
      · exact Or.inr (Or.inl ((List.mem_erase_of_ne heq).mpr hevents))
      · exact Or.inr (Or.inr hevents)
  case listFailed cluster err hcluster =>
    have hne : y ≠ cluster := fun heq => absurd (hok heq.symm) (by simp)
    exact (hs.owed hy hn).imp_right (Or.imp_right (List.mem_erase_of_ne hne).mpr)
  case clusterAdded cluster hcluster =>
    by_cases heq : y = cluster
    · subst heq
      exact Or.inl (onTheWay_send
        (exists_heading_namespaceListMessage hpath (hs.named.clusters y hy) hn))
    · rcases hs.owed hy hn with hway | hevents | hevents
      · exact Or.inl (OnTheWay.send (s := { s with clusterEvents := s.clusterEvents.erase cluster }) hway _)
      · exact Or.inr (Or.inl hevents)
      · exact Or.inr (Or.inr ((List.mem_erase_of_ne heq).mpr hevents))
  case recorded i parent created r hr hroot table htable =>
    rcases mem_createOrUpdateCluster hy with hold | ⟨hname, hevent⟩
    · obtain ⟨hpool, hnamespaces, hevents⟩ := createOrUpdateCluster_namespaces r.name created
      rw [hnamespaces] at hn
      rw [hpool, hevents]
      exact (hs.owed hold hn).imp_right
        (Or.imp_right fun h => mem_clusterEvents_createOrUpdateCluster h r.name created)
    · exact Or.inr (Or.inr (hevent (hok r hr hname.symm).2))
  case handle ch i pool hpool =>
    rcases hs.owed hy hn with hway | hevents
    · refine Or.inl ((work re s.node).kept_of_step ?_ hpool hway)
      rintro f hf ⟨k, hheading⟩
      rcases heading_kept hs.named hpath (hs.known hy) (hok f hf) hheading with hemit | ⟨f', hf', j, -, hj⟩
      · exact Or.inl ⟨_, hemit, rfl⟩
      · exact Or.inr ⟨f', hf', j, hj⟩
    · exact Or.inr hevents
  all_goals exact hs.owed hy hn

theorem Served.step (hpath : IsPath root y path) (hs : Served re y n path s)
    (hok : Undisturbed y n path s a) (h : step re root s a = some s') : Served re y n path s' where
  named := hs.named.step h
  links := hs.links_step hok h
  climbing := hs.climbing_step hpath hok h
  known := hs.known_step hpath hok h
  owed := hs.owed_step hpath hok h

/-! ## The namespaces arrive -/

/-- A message on its way to `y` can be brought there, one handling after the other. -/
theorem exists_delivery (hpath : IsPath root y path) (k : ℕ) :
    ∀ {s : State} {f : Flight}, Named s → Routed s y path → f ∈ s.pool.tasks → Heading re y n path k f →
      ∃ bs s', bs.length ≤ k ∧ runSteps (NamespaceSync.step re root) s bs = some s' ∧
        (y, n) ∈ s'.pool.log := by
  induction k using Nat.strong_induction_on with
  | _ k ih =>
    intro s f hs hrouted hf hheading
    obtain ⟨i, pool, hpool, htasks, hlog⟩ := (work re s.node).exists_step_of_mem hf plainChoice
    have hstep : NamespaceSync.step re root s (.handle plainChoice i) = some { s with pool := pool } := by
      simp only [NamespaceSync.step, hpool, Option.map_some]
    have hplain : f.hop.cluster.name ∈ path → plainChoice.lost = false ∧ plainChoice.taken = .asRequest :=
      fun _ => ⟨rfl, rfl⟩
    rcases heading_kept hs hpath hrouted hplain hheading with hemit | ⟨f', hf', j, hj, hheading'⟩
    · refine ⟨[.handle plainChoice i], _, ?_, runSteps_cons.mpr ⟨_, hstep, rfl⟩, hlog _ hemit⟩
      obtain ⟨hop, task⟩ := f
      cases hop with
      | tunnel c m =>
          obtain ⟨-, -, -, t, -, rfl⟩ := hheading
          simp
      | dispatch c m => simp [work] at hemit
    · obtain ⟨bs, s', hlen, hrun, hgot⟩ := ih j hj (hs.step hstep) hrouted (htasks f' hf') hheading'
      exact ⟨.handle plainChoice i :: bs, s', by rw [List.length_cons]; omega,
        runSteps_cons.mpr ⟨_, hstep, hrun⟩, hgot⟩

/-- The cluster `y` is new: it has no record and no registration is on its way.  The clusters of the path are
connected to their parents on it, if at all. -/
structure Fresh (y : String) (path : List String) (s : State) : Prop where
  named : Named s
  links : ∀ c d, (c, d) ∈ s.connected → d ∈ path → [c, d] <:+: path
  unregistered : ∀ r ∈ s.registrations, r.name ≠ y
  unrecorded : y ∉ s.clusters

theorem Fresh.served (h : Fresh y path s) : Served re y n path s where
  named := h.named
  links := h.links
  climbing r hr hname := absurd hname (h.unregistered r hr)
  known hy := absurd hy h.unrecorded
  owed hy := absurd hy h.unrecorded

/-- What `y` is owed can be brought to it, whether it is on its way or has to be sent. -/
theorem Served.exists_delivery (hpath : IsPath root y path) (hs : Served re y n path s) (hy : y ∈ s.clusters)
    (hn : n ∈ s.namespaces) :
    ∃ bs s', bs.length ≤ 2 * path.length ∧ runSteps (NamespaceSync.step re root) s bs = some s' ∧
      (y, n) ∈ s'.pool.log := by
  -- an event that is not handled yet is handled first
  have hsend : ∀ {b : Action} {t : State} {f : Flight}, NamespaceSync.step re root s b = some (t.send f) →
      t.tables = s.tables → t.connected = s.connected → (∃ k, Heading re y n path k f) →
      ∃ bs s', bs.length ≤ 2 * path.length ∧ runSteps (NamespaceSync.step re root) s bs = some s' ∧
        (y, n) ∈ s'.pool.log := by
    rintro b t f hstep htables hconn ⟨k, hheading⟩
    have hrouted : Routed (t.send f) y path := by
      intro c d hlink
      have hrouted := hs.known hy c d hlink
      rwa [← htables, ← hconn] at hrouted
    obtain ⟨bs, s', hlen, hrun, hgot⟩ := NamespaceSync.exists_delivery hpath k (hs.named.step hstep) hrouted
      (List.mem_append_right _ (List.mem_singleton_self f)) hheading
    have hle := hheading.le
    exact ⟨b :: bs, s', by rw [List.length_cons]; omega, runSteps_cons.mpr ⟨_, hstep, hrun⟩, hgot⟩
  rcases hs.owed hy hn with (⟨o, ho, rfl⟩ | ⟨f, hf, k, hheading⟩) | hevent | hevent
  · exact ⟨[], s, Nat.zero_le _, rfl, ho⟩
  · obtain ⟨bs, s', hlen, hrun, hgot⟩ :=
      NamespaceSync.exists_delivery hpath k hs.named (hs.known hy) hf hheading
    have hle := hheading.le
    exact ⟨bs, s', by omega, hrun, hgot⟩
  · exact hsend (b := .namespaceAdded n) (if_pos hevent) rfl rfl
      (exists_heading_sendNamespaceToCluster hpath (hs.named.clusters y hy))
  · exact hsend (b := .clusterAdded y none) (if_pos hevent) rfl rfl
      (exists_heading_namespaceListMessage hpath (hs.named.clusters y hy) hn)

end Served

instance (y n : String) (path : List String) (s : State) : ∀ a, Decidable (Undisturbed y n path s a)
  | .createNamespace _ _ => inferInstanceAs (Decidable (_ → _))
  | .clusterAdded _ _ => inferInstanceAs (Decidable (_ → _))
  | .connect _ _ => inferInstanceAs (Decidable (_ → _))
  | .disconnect _ _ => inferInstanceAs (Decidable (¬ _))
  | .checkClusterName _ _ => inferInstanceAs (Decidable (_ → _))
  | .handleRegist i _ created => inferInstanceAs (Decidable (∀ r ∈ s.registrations[i]?, r.name = y →
      (r.client = y → (r.handler, y) ∈ s.connected) ∧ created ≠ .unnoticed))
  | .delRoute _ _ _ _ => inferInstanceAs (Decidable (_ → _))
  | .handle ch i => inferInstanceAs (Decidable
      (∀ f ∈ s.pool.tasks[i]?, f.hop.cluster.name ∈ path → ch.lost = false ∧ ch.taken = .asRequest))
  | .deleteNamespace _ | .deleteCluster _ | .restart | .namespaceAdded _ | .addRoute _ _ _ => .isTrue trivial

theorem fresh_initial (y : String) (path : List String) : Fresh y path initial where
  named := named_initial
  links := by simp [initial]
  unregistered := by simp [initial]
  unrecorded := by simp [initial]

/-- A namespace is made, then the cluster `edge` registers with the root, and `c1` with `edge`. -/
def lateCluster : List Action :=
  [.createNamespace "team" .added, .namespaceAdded "team", .handle plainChoice 0,
    .connect "root" "edge", .checkClusterName "root" "edge", .handleRegist 0 none .added,
    .connect "edge" "c1", .checkClusterName "edge" "c1", .handleRegist 0 (some "root") .failed,
    .handleRegist 0 none .added]

end OteStack.NamespaceSync
