/-
# OteStack.Reporter.ClusterStatusReport — the status that a cluster reports of itself.

`pkg/reporter/cluster_status_report.go`.  Once a minute the nodes of the cluster are listed and the quantities
of the ready ones are added up, resource by resource, in two nested range loops.  Without the list the cluster
reports that it is offline, and no quantities.

The sums do not depend on the order of the loops: for each resource name they are what the ready nodes offer
(`get_capacity`, `get_allocatable`), and a name that no ready node has is not reported at all.  Nor do they
depend on the order of the nodes, and the sums of two lists of nodes are added (`clusterResource_sums`).
-/
import OteStack.K8sClient.ClusterCRD
import OteStack.Reporter.Resource

namespace OteStack.Reporter

open OteStack.Lib (GoMap MapOrder)
open OteStack.Lib.KubeApi
open OteStack.K8sClient (ClusterStatus clusterStatusOnline clusterStatusOffline)

/-- A node. -/
abbrev Node := Object NodeSpec NodeStatus

/-- The resources of a cluster; a quantity is a number here. -/
structure ClusterResource where
  capacity : GoMap String Int
  allocatable : GoMap String Int

/-- Go's `isNodeReady`: the first condition of this type decides. -/
def isNodeReady (node : Node) : Bool :=
  if node.spec.unschedulable then false
  else match node.status.conditions.find? fun c => c.1 == "Ready" with
    | some c => c.2 == "True"
    | none => false

/-- A range loop that adds the quantities of a node to the sums; a sum starts at zero. -/
def addQuantities (it : MapOrder String) (sums quantities : GoMap String Int) : GoMap String Int :=
  (it.order quantities).foldl
    (fun sums name => sums.set name ((sums.get name).getD 0 + (quantities.get name).getD 0)) sums

/-- The round of a node. -/
def addNode (it : MapOrder String) (clusterResource : ClusterResource) (node : Node) : ClusterResource :=
  if isNodeReady node then
    { allocatable := addQuantities it clusterResource.allocatable (node.status.allocatable.getD ∅)
      capacity := addQuantities it clusterResource.capacity (node.status.capacity.getD ∅) }
  else clusterResource

/-- Go's `caculateClusterResource`. -/
def caculateClusterResource (it : MapOrder String) (nodes : List Node) : ClusterResource :=
  nodes.foldl (addNode it) ⟨∅, ∅⟩

/-- Go's `syncClusterStatus`, at a time and with the answer to the list of the nodes.  `text` is the canonical
text of a quantity. -/
def syncClusterStatus (it : MapOrder String) (text : Int → String) (now : Int)
    (list : Except ApiError (List Node)) : ClusterStatus :=
  match list with
  | .error _ => ⟨"", "", clusterStatusOffline, now, ∅, ∅⟩
  | .ok nodes =>
      let clusterResource := caculateClusterResource it nodes
      ⟨"", "", clusterStatusOnline, now, clusterResource.capacity.mapValues text,
        clusterResource.allocatable.mapValues text⟩

/-! ## The sums -/

section Sums

variable (it : MapOrder String)

theorem get_addQuantities (sums quantities : GoMap String Int) (n : String) :
    (addQuantities it sums quantities).get n =
      match quantities.get n with
      | none => sums.get n
      | some v => some ((sums.get n).getD 0 + v) := by
  have hrange := it.obs_range quantities GoMap.get
    (fun sums name => sums.set name ((sums.get name).getD 0 + (quantities.get name).getD 0))
    (fun name sum => some (sum.getD 0 + (quantities.get name).getD 0))
    (fun k _ s => GoMap.get_set_self s k _) (fun k _ s a ha => GoMap.get_set_of_ne s ha _) sums n
  rw [addQuantities, hrange]
  rcases hn : quantities.get n with _ | v
  · rfl
  · rfl

/-- What the nodes offer of a resource, of those that offer it. -/
def offered (quantities : Node → Option (GoMap String Int)) (n : String) (nodes : List Node) : List Int :=
  nodes.filterMap fun node => ((quantities node).getD ∅).get n

theorem offered_cons (quantities : Node → Option (GoMap String Int)) (n : String) (node : Node)
    (nodes : List Node) :
    offered quantities n (node :: nodes) =
      (((quantities node).getD ∅).get n).toList ++ offered quantities n nodes := by
  unfold offered
  rw [List.filterMap_cons]
  split
  · rename_i hn
    rw [hn]
    rfl
  · rename_i v hn
    rw [hn]
    rfl

/-- The rounds of some nodes, for one of the two maps. -/
theorem get_foldl_addQuantities (quantities : Node → Option (GoMap String Int)) (n : String)
    (nodes : List Node) (sums : GoMap String Int) :
    (nodes.foldl (fun sums node => addQuantities it sums ((quantities node).getD ∅)) sums).get n =
      if (offered quantities n nodes).isEmpty then sums.get n
      else some ((sums.get n).getD 0 + (offered quantities n nodes).foldr (· + ·) 0) := by
  induction nodes generalizing sums with
  | nil => rfl
  | cons node nodes ih =>
      rw [List.foldl_cons, ih, get_addQuantities, offered_cons]
      rcases ((quantities node).getD ∅).get n with _ | v
      · rfl
      · by_cases hrest : offered quantities n nodes = []
        · simp [hrest]
        · simp [hrest, Int.add_assoc]

theorem foldl_addNode (nodes : List Node) (r : ClusterResource) :
    nodes.foldl (addNode it) r =
      { allocatable := (nodes.filter isNodeReady).foldl
          (fun sums node => addQuantities it sums (node.status.allocatable.getD ∅)) r.allocatable
        capacity := (nodes.filter isNodeReady).foldl
          (fun sums node => addQuantities it sums (node.status.capacity.getD ∅)) r.capacity } := by
  induction nodes generalizing r with
  | nil => rfl
  | cons node nodes ih =>
      rw [List.foldl_cons, ih, addNode]
      by_cases hready : isNodeReady node
      · simp [hready]
      · simp [hready]

/-- The sum of what the ready nodes offer, if one of them does. -/
def total (quantities : Node → Option (GoMap String Int)) (n : String) (nodes : List Node) : Option Int :=
  if (offered quantities n (nodes.filter isNodeReady)).isEmpty then none
  else some ((offered quantities n (nodes.filter isNodeReady)).foldr (· + ·) 0)

/-- One of the two maps after all rounds. -/
theorem get_foldl_ready (quantities : Node → Option (GoMap String Int)) (nodes : List Node) (n : String) :
    ((nodes.filter isNodeReady).foldl
      (fun sums node => addQuantities it sums ((quantities node).getD ∅)) ∅).get n =
        total quantities n nodes := by
  rw [get_foldl_addQuantities, total]
  simp

theorem get_capacity (nodes : List Node) (n : String) :
    (caculateClusterResource it nodes).capacity.get n = total (fun node => node.status.capacity) n nodes := by
  rw [caculateClusterResource, foldl_addNode]
  exact get_foldl_ready it (fun node => node.status.capacity) nodes n

theorem get_allocatable (nodes : List Node) (n : String) :
    (caculateClusterResource it nodes).allocatable.get n =
      total (fun node => node.status.allocatable) n nodes := by
  rw [caculateClusterResource, foldl_addNode]
  exact get_foldl_ready it (fun node => node.status.allocatable) nodes n

/-- A sum is there exactly if a ready node offers the resource. -/
theorem total_ne_none_iff {quantities : Node → Option (GoMap String Int)} {n : String} {nodes : List Node} :
    total quantities n nodes ≠ none ↔
      ∃ node ∈ nodes, isNodeReady node = true ∧ n ∈ ((quantities node).getD ∅).keys := by
  rw [total, ne_eq, ite_eq_left_iff]
  simp [offered, List.isEmpty_iff, List.filterMap_eq_nil_iff, GoMap.mem_keys, Option.ne_none_iff_exists']

/-- The resources in a map of sums, written as texts. -/
theorem mem_keys_mapValues_iff {quantities : Node → Option (GoMap String Int)} {sums : GoMap String Int}
    {nodes : List Node} {n : String} (h : sums.get n = total quantities n nodes) (text : Int → String) :
    n ∈ (sums.mapValues text).keys ↔
      ∃ node ∈ nodes, isNodeReady node = true ∧ n ∈ ((quantities node).getD ∅).keys := by
  rw [GoMap.keys_mapValues, ← total_ne_none_iff, ← h, ← not_iff_not, not_not, GoMap.notMem_keys]

/-- A resource is in the report exactly if a ready node has it. -/
theorem mem_keys_capacity_syncClusterStatus {text : Int → String} {now : Int} {nodes : List Node}
    {n : String} :
    n ∈ (syncClusterStatus it text now (.ok nodes)).capacity.keys ↔
      ∃ node ∈ nodes, isNodeReady node = true ∧ n ∈ (node.status.capacity.getD ∅).keys :=
  mem_keys_mapValues_iff (get_capacity it nodes n) text

theorem mem_keys_allocatable_syncClusterStatus {text : Int → String} {now : Int} {nodes : List Node}
    {n : String} :
    n ∈ (syncClusterStatus it text now (.ok nodes)).allocatable.keys ↔
      ∃ node ∈ nodes, isNodeReady node = true ∧ n ∈ (node.status.allocatable.getD ∅).keys :=
  mem_keys_mapValues_iff (get_allocatable it nodes n) text

/-! ### Lists of nodes -/

/-- The node is schedulable and the first of its conditions of type `Ready` has the status `True`. -/
def Ready (node : Node) : Prop :=
  node.spec.unschedulable = false ∧
    ∃ before after, node.status.conditions = before ++ ("Ready", "True") :: after ∧
      ∀ c ∈ before, c.1 ≠ "Ready"

theorem isNodeReady_iff (node : Node) : isNodeReady node = true ↔ Ready node := by
  unfold isNodeReady Ready
  cases node.spec.unschedulable with
  | true => simp
  | false =>
      simp only [Bool.false_eq_true, if_false, true_and]
      cases hfind : node.status.conditions.find? fun c => c.1 == "Ready" with
      | none =>
          simp only [Bool.false_eq_true, false_iff]
          rintro ⟨before, after, hconditions, -⟩
          have hmem : ("Ready", "True") ∈ node.status.conditions := by simp [hconditions]
          exact List.find?_eq_none.mp hfind _ hmem rfl
      | some c =>
          obtain ⟨htype, before, after, hconditions, hbefore⟩ := List.find?_eq_some_iff_append.mp hfind
          have hready : c.1 = "Ready" := by simpa using htype
          simp only [beq_iff_eq]
          constructor
          · intro hstatus
            exact ⟨before, after, by rw [hconditions, ← hready, ← hstatus], by simpa using hbefore⟩
          · -- the first condition of the type is one and the same
            rintro ⟨before', after', hconditions', hbefore'⟩
            have hfind' : (node.status.conditions.find? fun c => c.1 == "Ready") =
                some ("Ready", "True") := by
              refine List.find?_eq_some_iff_append.mpr ⟨rfl, before', after', hconditions', ?_⟩
              simpa using hbefore'
            rw [hfind] at hfind'
            rw [Option.some.inj hfind']

/-- The sum of a resource over the ready nodes; a node that does not offer it adds nothing. -/
def readySum (quantities : Node → Option (GoMap String Int)) (n : String) (nodes : List Node) : Int :=
  ((nodes.filter isNodeReady).map fun node => (((quantities node).getD ∅).get n).getD 0).foldr (· + ·) 0

theorem foldr_offered (quantities : Node → Option (GoMap String Int)) (n : String) (nodes : List Node) :
    (offered quantities n nodes).foldr (· + ·) 0 =
      (nodes.map fun node => (((quantities node).getD ∅).get n).getD 0).foldr (· + ·) 0 := by
  induction nodes with
  | nil => rfl
  | cons node nodes ih =>
      rw [offered_cons, List.map_cons, List.foldr_cons, ← ih]
      rcases ((quantities node).getD ∅).get n with _ | v
      · simp
      · rfl

theorem total_eq_some {quantities : Node → Option (GoMap String Int)} {n : String} {nodes : List Node}
    {v : Int} (h : total quantities n nodes = some v) : v = readySum quantities n nodes := by
  obtain ⟨-, hv⟩ := Option.ite_none_left_eq_some.mp h
  rw [← Option.some.inj hv, foldr_offered, readySum]

/-- The totals of two orders of the nodes are the same. -/
theorem total_perm {quantities : Node → Option (GoMap String Int)} {nodes nodes' : List Node}
    (h : nodes.Perm nodes') (n : String) : total quantities n nodes = total quantities n nodes' := by
  have hoffered : (offered quantities n (nodes.filter isNodeReady)).Perm
      (offered quantities n (nodes'.filter isNodeReady)) := (h.filter _).filterMap _
  unfold total
  rw [hoffered.foldr_eq, hoffered.isEmpty_eq]

/-- What two lists offer together is added. -/
theorem total_append (quantities : Node → Option (GoMap String Int)) (n : String) (nodes nodes' : List Node) :
    total quantities n (nodes ++ nodes') =
      (total quantities n nodes).merge (· + ·) (total quantities n nodes') := by
  have hoffered : offered quantities n ((nodes ++ nodes').filter isNodeReady) =
      offered quantities n (nodes.filter isNodeReady) ++
        offered quantities n (nodes'.filter isNodeReady) := by
    rw [List.filter_append, offered, List.filterMap_append]
    rfl
  have hsum : ∀ l l' : List Int,
      (l ++ l').foldr (· + ·) 0 = l.foldr (· + ·) 0 + l'.foldr (· + ·) 0 := by
    intro l l'
    induction l with
    | nil => simp
    | cons v l ih => rw [List.cons_append, List.foldr_cons, ih, List.foldr_cons, Int.add_assoc]
  unfold total
  rw [hoffered, hsum]
  cases offered quantities n (nodes.filter isNodeReady) with
  | nil =>
      cases offered quantities n (nodes'.filter isNodeReady) with
      | nil => rfl
      | cons v' l' => simp
  | cons v l =>
      cases offered quantities n (nodes'.filter isNodeReady) with
      | nil => simp
      | cons v' l' => simp

/-- A map has the resources of the ready nodes, each with its sum over them. -/
structure SumsUp (quantities : Node → Option (GoMap String Int)) (nodes : List Node)
    (sums : GoMap String Int) : Prop where
  mem_keys : ∀ n, n ∈ sums.keys ↔ ∃ node ∈ nodes, Ready node ∧ n ∈ ((quantities node).getD ∅).keys
  sum : ∀ n v, sums.get n = some v → v = readySum quantities n nodes

theorem sumsUp_of_get_eq_total {quantities : Node → Option (GoMap String Int)} {nodes : List Node}
    {sums : GoMap String Int} (h : ∀ n, sums.get n = total quantities n nodes) :
    SumsUp quantities nodes sums where
  mem_keys n := by
    have hkeys : n ∈ sums.keys ↔ total quantities n nodes ≠ none := by
      rw [← h, ← not_iff_not, not_not, GoMap.notMem_keys]
    simp only [hkeys, total_ne_none_iff, isNodeReady_iff]
  sum n v hv := total_eq_some ((h n).symm.trans hv)

end Sums

/-- The resources of a cluster are the sums over its ready nodes, for both maps.  They are the same for
every order of the nodes and of the range loops, and those of two lists together are added resource by
resource. -/
theorem clusterResource_sums :
    (∀ (it : MapOrder String) (nodes : List Node),
      SumsUp (fun node => node.status.capacity) nodes (caculateClusterResource it nodes).capacity ∧
        SumsUp (fun node => node.status.allocatable) nodes (caculateClusterResource it nodes).allocatable) ∧
      (∀ (it it' : MapOrder String) (nodes nodes' : List Node), nodes.Perm nodes' →
        caculateClusterResource it nodes = caculateClusterResource it' nodes') ∧
      ∀ (it : MapOrder String) (nodes nodes' : List Node) (n : String),
        (caculateClusterResource it (nodes ++ nodes')).capacity.get n =
            ((caculateClusterResource it nodes).capacity.get n).merge (· + ·)
              ((caculateClusterResource it nodes').capacity.get n) ∧
          (caculateClusterResource it (nodes ++ nodes')).allocatable.get n =
            ((caculateClusterResource it nodes).allocatable.get n).merge (· + ·)
              ((caculateClusterResource it nodes').allocatable.get n) := by
  refine ⟨fun it nodes => ?_, fun it it' nodes nodes' hperm => ?_, fun it nodes nodes' n => ?_⟩
  · exact ⟨sumsUp_of_get_eq_total (get_capacity it nodes), sumsUp_of_get_eq_total (get_allocatable it nodes)⟩
  · have hcapacity : (caculateClusterResource it nodes).capacity =
        (caculateClusterResource it' nodes').capacity :=
      GoMap.ext fun n => by rw [get_capacity, get_capacity, total_perm hperm]
    have hallocatable : (caculateClusterResource it nodes).allocatable =
        (caculateClusterResource it' nodes').allocatable :=
      GoMap.ext fun n => by rw [get_allocatable, get_allocatable, total_perm hperm]
    calc caculateClusterResource it nodes
        = ⟨(caculateClusterResource it nodes).capacity, (caculateClusterResource it nodes).allocatable⟩ := rfl
      _ = ⟨(caculateClusterResource it' nodes').capacity,
            (caculateClusterResource it' nodes').allocatable⟩ := by rw [hcapacity, hallocatable]
  · rw [get_capacity, get_capacity, get_capacity, get_allocatable, get_allocatable, get_allocatable]
    exact ⟨total_append _ n nodes nodes', total_append _ n nodes nodes'⟩

end OteStack.Reporter
