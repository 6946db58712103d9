/-
# OteStack.ClusterHandler.ClusterTree — the clusters of a tree, its levels and its tables.

The tree of `OteStack.ClusterHandler.Broadcast` with the tables left open: which clusters it has, how
many levels, that a cluster is known by its name if no two have the same, and that a tree whose tables
route exactly what is below is wired for a broadcast (`wired_withTables`).
-/
import OteStack.ClusterHandler.Broadcast

namespace OteStack

/-! ## The clusters of a tree -/

namespace Cluster

mutual

/-- The clusters of a tree, the root first. -/
def subtrees : Cluster → List Cluster
  | .node n r cs => .node n r cs :: subtreesList cs

/-- The clusters of a list of trees. -/
def subtreesList : List Cluster → List Cluster
  | [] => []
  | c :: cs => c.subtrees ++ subtreesList cs

end

mutual

/-- The number of levels below the root. -/
def height : Cluster → ℕ
  | .node _ _ cs => heightList cs

/-- The number of levels of a list of trees. -/
def heightList : List Cluster → ℕ
  | [] => 0
  | c :: cs => max (c.height + 1) (heightList cs)

end

mutual

/-- The tree with other tables. -/
def withTables (tables : String → SubTreeRouter) : Cluster → Cluster
  | .node n _ cs => .node n (tables n) (withTablesList tables cs)

/-- A list of trees with other tables. -/
def withTablesList (tables : String → SubTreeRouter) : List Cluster → List Cluster
  | [] => []
  | c :: cs => c.withTables tables :: withTablesList tables cs

end

theorem subtrees_eq (c : Cluster) : c.subtrees = c :: subtreesList c.clients := by
  cases c with
  | node n r cs => rw [subtrees]; rfl

theorem mem_subtreesList {cs : List Cluster} {b : Cluster} :
    b ∈ subtreesList cs ↔ ∃ c ∈ cs, b ∈ c.subtrees := by
  induction cs with
  | nil => simp [subtreesList]
  | cons c cs ih => simp [subtreesList, ih]

theorem self_mem_subtrees (c : Cluster) : c ∈ c.subtrees := by
  rw [subtrees_eq]
  exact List.mem_cons_self

mutual

theorem map_name_subtrees : ∀ c : Cluster, c.subtrees.map name = c.names
  | .node n r cs => by
      rw [subtrees, names, List.map_cons, map_name_subtreesList cs]
      rfl

theorem map_name_subtreesList : ∀ cs : List Cluster, (subtreesList cs).map name = namesList cs
  | [] => rfl
  | c :: cs => by
      rw [subtreesList, namesList, List.map_append, map_name_subtrees c, map_name_subtreesList cs]

end

mutual

/-- The clusters of a subtree are clusters of the tree. -/
theorem sublist_subtrees : ∀ {root c : Cluster}, c ∈ root.subtrees → c.subtrees.Sublist root.subtrees
  | .node n r cs, c, h => by
      rw [subtrees] at h ⊢
      rcases List.mem_cons.mp h with rfl | h
      · rw [subtrees]
      · exact (sublist_subtreesList h).cons _

theorem sublist_subtreesList : ∀ {cs : List Cluster} {c : Cluster}, c ∈ subtreesList cs →
    c.subtrees.Sublist (subtreesList cs)
  | [], c, h => by simp [subtreesList] at h
  | b :: cs, c, h => by
      rw [subtreesList] at h ⊢
      rcases List.mem_append.mp h with h | h
      · exact (sublist_subtrees h).trans (List.sublist_append_left _ _)
      · exact (sublist_subtreesList h).trans (List.sublist_append_right _ _)

end

theorem height_lt_of_mem_clients {c d : Cluster} (h : d ∈ c.clients) : d.height < c.height := by
  cases c with
  | node n r cs =>
      have hlist : ∀ l : List Cluster, d ∈ l → d.height < heightList l := by
        intro l
        induction l with
        | nil => simp
        | cons b l ih =>
            intro hd
            rw [heightList]
            rcases List.mem_cons.mp hd with rfl | hd
            · exact Nat.lt_of_lt_of_le (Nat.lt_succ_self _) (le_max_left _ _)
            · exact (ih hd).trans_le (le_max_right _ _)
      rw [height]
      exact hlist cs h

section Tree

variable {root c d e : Cluster} {k : String}

theorem mem_subtrees_of_client (hc : c ∈ root.subtrees) (hd : d ∈ c.clients) : d ∈ root.subtrees := by
  refine (sublist_subtrees hc).subset ?_
  rw [subtrees_eq]
  exact List.mem_cons_of_mem _ (mem_subtreesList.mpr ⟨d, hd, self_mem_subtrees d⟩)

/-- In a tree without two clusters of one name, a cluster is known by its name. -/
theorem eq_of_name_eq (hnodup : root.names.Nodup) (hc : c ∈ root.subtrees) (hd : d ∈ root.subtrees)
    (h : c.name = d.name) : c = d := by
  rw [← map_name_subtrees] at hnodup
  exact List.inj_on_of_nodup_map hnodup hc hd h

theorem nodup_names_of_mem (hnodup : root.names.Nodup) (hc : c ∈ root.subtrees) : c.names.Nodup := by
  rw [← map_name_subtrees] at hnodup ⊢
  exact hnodup.sublist ((sublist_subtrees hc).map _)

theorem nodup_descendants (hnodup : root.names.Nodup) (hc : c ∈ root.subtrees) : c.descendants.Nodup := by
  have h := nodup_names_of_mem hnodup hc
  rw [names_eq] at h
  exact (List.nodup_cons.mp h).2

/-- The branches of a cluster have no name in common. -/
theorem client_eq_of_mem_names (hnodup : root.names.Nodup) (hc : c ∈ root.subtrees) (hd : d ∈ c.clients)
    (he : e ∈ c.clients) (hkd : k ∈ d.names) (hke : k ∈ e.names) : d = e := by
  by_contra hne
  have hlist : ∀ l : List Cluster, (namesList l).Nodup → d ∈ l → e ∈ l → False := by
    intro l
    induction l with
    | nil => simp
    | cons b l ih =>
        intro hnd hdbl hebl
        rw [namesList] at hnd
        obtain ⟨-, hl, hdisj⟩ := List.nodup_append.mp hnd
        rcases List.mem_cons.mp hdbl with rfl | hdl
        · rcases List.mem_cons.mp hebl with rfl | hel
          · exact hne rfl
          · exact hdisj k hkd k (mem_namesList.mpr ⟨e, hel, hke⟩) rfl
        · rcases List.mem_cons.mp hebl with rfl | hel
          · exact hdisj k hke k (mem_namesList.mpr ⟨d, hdl, hkd⟩) rfl
          · exact ih hl hdl hel
  exact hlist c.clients (nodup_descendants hnodup hc) hd he

theorem name_mem_names (c : Cluster) : c.name ∈ c.names := by
  rw [names_eq]
  exact List.mem_cons_self

theorem mem_names_of_mem_descendants (h : k ∈ c.descendants) : k ∈ c.names := by
  rw [names_eq]
  exact List.mem_cons_of_mem _ h

end Tree

end Cluster

/-! ## Tables that route exactly -/

/-- The table routes exactly the clusters below, each through the client in whose branch it is. -/
def RoutesExactly (c : Cluster) (r : SubTreeRouter) : Prop :=
  ∀ k v, r.get k = some v ↔ ∃ d ∈ c.clients, d.name = v ∧ k ∈ d.names

namespace Cluster

mutual

theorem height_le_of_mem_subtrees : ∀ {root c : Cluster}, c ∈ root.subtrees → c.height ≤ root.height
  | .node n r cs, c, h => by
      rw [subtrees] at h
      rcases List.mem_cons.mp h with rfl | h
      · exact le_rfl
      · rw [height]
        exact height_le_of_mem_subtreesList h

theorem height_le_of_mem_subtreesList : ∀ {cs : List Cluster} {c : Cluster}, c ∈ subtreesList cs →
    c.height ≤ heightList cs
  | [], c, h => by simp [subtreesList] at h
  | b :: cs, c, h => by
      rw [subtreesList] at h
      rw [heightList]
      rcases List.mem_append.mp h with h | h
      · exact (Nat.le_succ_of_le (height_le_of_mem_subtrees h)).trans (le_max_left _ _)
      · exact (height_le_of_mem_subtreesList h).trans (le_max_right _ _)

end

section WithTables

variable {tables : String → SubTreeRouter}

theorem withTablesList_eq_map (cs : List Cluster) :
    withTablesList tables cs = cs.map (withTables tables) := by
  induction cs with
  | nil => rfl
  | cons c cs ih => rw [withTablesList, ih, List.map_cons]

theorem name_withTables (c : Cluster) : (c.withTables tables).name = c.name := by
  cases c with
  | node n r cs => rw [withTables]; rfl

mutual

theorem names_withTables : ∀ c : Cluster, (c.withTables tables).names = c.names
  | .node n r cs => by rw [withTables, names, names, namesList_withTablesList cs]

theorem namesList_withTablesList : ∀ cs : List Cluster,
    namesList (withTablesList tables cs) = namesList cs
  | [] => rfl
  | c :: cs => by
      rw [withTablesList, namesList, namesList, names_withTables c, namesList_withTablesList cs]

end

theorem map_name_sublist_namesList (cs : List Cluster) : (cs.map name).Sublist (namesList cs) := by
  induction cs with
  | nil => exact List.Sublist.slnil
  | cons c cs ih =>
      rw [namesList, names_eq, List.map_cons]
      exact (ih.trans (List.sublist_append_right _ _)).cons_cons _

mutual

/-- A tree whose tables route exactly is wired. -/
theorem wired_withTables : ∀ c : Cluster, (∀ b ∈ c.subtrees, RoutesExactly b (tables b.name)) →
    (∀ n ∈ c.names, IsClusterName n) → c.names.Nodup → (c.withTables tables).Wired
  | .node n r cs, hexact, hnames, hnodup => by
      have hown := hexact _ (self_mem_subtrees _)
      have hbelow : (Cluster.node n r cs).names = n :: namesList cs := by rw [names]
      rw [hbelow] at hnames hnodup
      rw [withTables]
      refine .node ?_ ?_ ?_ (wiredList_withTables cs ?_ ?_ ?_)
      · rw [withTablesList_eq_map, List.map_map]
        have hmap : cs.map (name ∘ withTables tables) = cs.map name :=
          List.map_congr_left fun c _ => name_withTables c
        rw [hmap]
        exact (List.nodup_cons.mp hnodup).2.sublist (map_name_sublist_namesList cs)
      · intro c hc x hx
        rw [withTablesList_eq_map] at hc
        obtain ⟨d, hd, rfl⟩ := List.mem_map.mp hc
        rw [names_withTables] at hx
        rw [name_withTables]
        exact (hown x d.name).mpr ⟨d, hd, rfl, hx⟩
      · intro k port hk
        obtain ⟨d, hd, -, hkd⟩ := (hown k port).mp hk
        exact hnames k (List.mem_cons_of_mem _ (mem_namesList.mpr ⟨d, hd, hkd⟩))
      · intro b hb
        refine hexact b ?_
        rw [subtrees]
        exact List.mem_cons_of_mem _ hb
      · exact fun k hk => hnames k (List.mem_cons_of_mem _ hk)
      · exact (List.nodup_cons.mp hnodup).2

theorem wiredList_withTables : ∀ cs : List Cluster,
    (∀ b ∈ subtreesList cs, RoutesExactly b (tables b.name)) →
    (∀ n ∈ namesList cs, IsClusterName n) → (namesList cs).Nodup →
    ∀ c ∈ withTablesList tables cs, c.Wired
  | [], _, _, _, c, hc => by simp [withTablesList] at hc
  | b :: cs, hexact, hnames, hnodup, c, hc => by
      rw [subtreesList] at hexact
      rw [namesList] at hnames hnodup
      rw [withTablesList] at hc
      obtain ⟨hb, hcs, -⟩ := List.nodup_append.mp hnodup
      rcases List.mem_cons.mp hc with rfl | hc
      · exact wired_withTables b (fun x hx => hexact x (List.mem_append_left _ hx))
          (fun x hx => hnames x (List.mem_append_left _ hx)) hb
      · exact wiredList_withTables cs (fun x hx => hexact x (List.mem_append_right _ hx))
          (fun x hx => hnames x (List.mem_append_right _ hx)) hcs c hc

end

end WithTables

end Cluster

end OteStack
