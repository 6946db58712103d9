/-
# OteStack.ControllerManager.Isolation — whether the report of one cluster can reach another's objects.

At the centre the object `name` of cluster `c` is kept under `name-c`.  Both parts may contain dashes,
so `a-b` of cluster `c` and `a` of cluster `b-c` are kept under one key.  The full list goes by label
and never leaves its cluster; updates and deletes go by name and reach whatever is kept there.

`isolated_iff` says exactly when a whole report spares the objects of another cluster: no delete
addresses one, and no update that would take effect does.  A report is a sequence of writes, each on
one key; the rule about sequences of writes is `owned_foldl_iff`.
-/
import OteStack.Lib.Ownership
import OteStack.Lib.StepSystem
import OteStack.ControllerManager.Upsert

namespace OteStack.ControllerManager

open OteStack.Lib (GoMap MapOrder Proc Touches owned owned_foldl_iff owned_eq_some owned_of_foldl
  StepsMeet)
open OteStack.Lib.KubeApi
open OteStack.Reporter (clusterLabel edgeVersionLabel ResourceType ResourceStatus)

/-! ## Labels and central names -/

section Labels

variable {S T : Type}

/-- The object carries the label `ote-cluster=c`. -/
def labelledWith (c : String) (o : Object S T) : Bool :=
  o.metadata.labels.bind (fun l => l.get clusterLabel) == some c

theorem label_of_labelledWith {c : String} {o : Object S T} (h : labelledWith c o = true) :
    o.metadata.label clusterLabel = c := by
  rw [labelledWith, beq_iff_eq] at h
  rw [ObjectMeta.label, h, Option.getD_some]

theorem labelledWith_congr {c : String} {o o' : Object S T}
    (h : o.metadata.labels = o'.metadata.labels) : labelledWith c o = labelledWith c o' := by
  rw [labelledWith, labelledWith, h]

theorem labelledWith_ne {c d : String} {o : Object S T} (hcd : c ≠ d)
    (h : labelledWith c o = true) : labelledWith d o = false := by
  rw [labelledWith, beq_iff_eq] at h
  simp [labelledWith, h, hcd]

/-- The object under the name it has at the centre. -/
def central (c : String) (o : Object S T) : Object S T :=
  { o with metadata := { o.metadata with name := uniqueFullResourceName o.metadata.name c } }

theorem uniqueResourceName_eq {c : String} {o : Object S T} (hc : c ≠ "")
    (h : labelledWith c o = true) : uniqueResourceName o.metadata = .ok (central c o).metadata := by
  rw [uniqueResourceName, label_of_labelledWith h, if_neg hc]
  rfl

theorem uniqueResourceName_unnamed {o : Object S T} (h : labelledWith "" o = true) :
    uniqueResourceName o.metadata = .error (.text "ClusterLabel is empty") := by
  rw [uniqueResourceName, label_of_labelledWith h, if_pos rfl]

end Labels

/-! ## One write -/

section Write

variable {S T : Type} {st : Strategy T} {order : MapOrder ObjectKey} {sc : Scope} {c d : String}

/-- An upsert for cluster `c` hits what passes the version check and leaves no object of `d`. -/
theorem Upserts.touches {createOrUpdate : Object S T → Api S T (Except Error Unit)}
    (hu : Upserts st order sc createOrUpdate) {o : Object S T} (ho : labelledWith c o = true)
    (hcd : c ≠ d) :
    Touches Store.get (labelledWith d) (sc.key o.metadata)
      (fun x => checkEdgeVersion o.metadata x.metadata = true)
      fun s => (Proc.run (serve st order) (createOrUpdate o) s).2 where
  other s k' hk := hu.other s o k' hk
  spared s x hx hspare := hu.newer s o x hx (by simpa using hspare)
  hit s hhit x hx := by
    obtain ⟨x', hx', hlabels⟩ := hu.written s o hhit
    obtain rfl : x' = x := Option.some.inj (hx'.symm.trans hx)
    rw [labelledWith_congr hlabels]
    exact labelledWith_ne hcd ho

/-- A delete hits whatever is there. -/
theorem touches_delete (o : Object S T) :
    Touches Store.get (labelledWith d) (sc.key o.metadata) (fun _ => True)
      fun s => (Proc.run (serve st order) (deleteObject sc o) s).2 where
  other s k' hk := by rw [get_run_deleteObject, if_neg hk]
  spared s x hx hspare := absurd trivial hspare
  hit s hhit x hx := by
    rw [get_run_deleteObject, if_pos rfl] at hx
    cases hx

/-- What an update of kind `t` does not leave alone: a pod in "delete state" deletes what it finds,
any other object replaces what is not newer. -/
def takesEffect (t : ResourceType) (o x : t.Obj) : Prop :=
  (t = .pod ∧ o.metadata.deletionTimestamp ≠ none) ∨
    checkEdgeVersion o.metadata x.metadata = true

instance (t : ResourceType) (o x : t.Obj) : Decidable (takesEffect t o x) :=
  inferInstanceAs (Decidable (_ ∨ _))

theorem touches_createOrUpdateOf (t : ResourceType) (st : Strategy t.Status) {o : t.Obj}
    (ho : labelledWith c o = true) (hcd : c ≠ d) :
    Touches Store.get (labelledWith d) ((scopeOf t).key o.metadata) (takesEffect t o)
      fun s => (Proc.run (serve st order) (createOrUpdateOf t o) s).2 := by
  have hplain : t ≠ .pod → takesEffect t o = fun x =>
      checkEdgeVersion o.metadata x.metadata = true := by
    intro ht
    funext x
    simp [takesEffect, ht]
  cases t with
  | pod =>
      by_cases hdel : o.metadata.deletionTimestamp = none
      · have heffect : takesEffect .pod o = fun x =>
            checkEdgeVersion o.metadata x.metadata = true := by
          funext x
          simp [takesEffect, hdel]
        have hrun : createOrUpdateOf .pod o = createThenUpdate podScope createPod updatePod o := by
          simp [createOrUpdateOf, createOrUpdatePod, hdel]
        rw [heffect, hrun]
        exact (upserts_pod st).touches ho hcd
      · have heffect : takesEffect .pod o = fun _ => True := by
          funext x
          simp [takesEffect, hdel]
        have hrun : createOrUpdateOf .pod o = deleteObject podScope o := by
          simp [createOrUpdateOf, createOrUpdatePod, hdel, deletePod]
        rw [heffect, hrun]
        exact touches_delete o
  | node =>
      rw [hplain (by simp)]
      exact (upserts_node st).touches ho hcd
  | deployment =>
      rw [hplain (by simp)]
      exact (upserts_deployment st).touches ho hcd
  | daemonset =>
      rw [hplain (by simp)]
      exact (upserts_daemonset st).touches ho hcd
  | service =>
      rw [hplain (by simp)]
      exact (upserts_service st).touches ho hcd

end Write

/-! ## The loops of a report -/

section Loops

variable {S T : Type} {st : Strategy T} {order : MapOrder ObjectKey} {c : String}

/-- The objects of a map that may be nil, in the order in which it is ranged over. -/
def entries (it : MapOrder String) : Option (GoMap String (Object S T)) → List (Object S T)
  | none => []
  | some m => (it.order m).filterMap m.get

@[simp] theorem entries_none (it : MapOrder String) :
    entries it (none : Option (GoMap String (Object S T))) = [] := rfl

theorem mem_entries {it : MapOrder String} {m : GoMap String (Object S T)} {o : Object S T} :
    o ∈ entries it (some m) ↔ ∃ key, m.get key = some o := by
  simp only [entries, List.mem_filterMap, it.mem_order]
  constructor
  · rintro ⟨key, -, h⟩
    exact ⟨key, h⟩
  · rintro ⟨key, h⟩
    exact ⟨key, GoMap.mem_keys_of_get h, h⟩

/-- The loop over a map of objects of a named cluster. -/
theorem run_forEachUnique (hc : c ≠ "") (body : Object S T → Api S T (Except Error Unit))
    (it : MapOrder String) (m : GoMap String (Object S T))
    (hl : ∀ o ∈ entries it (some m), labelledWith c o = true) (s : Store S T) :
    (Proc.run (serve st order) (forEachUnique body it m) s).2 =
      (entries it (some m)).foldl
        (fun s o => (Proc.run (serve st order) (body (central c o)) s).2) s := by
  rw [forEachUnique, Proc.run_forEach, entries, List.foldl_filterMap]
  apply List.foldl_ext
  intro s key hkey
  cases h : m.get key with
  | none => rfl
  | some o =>
      have hlo := hl o (mem_entries.mpr ⟨key, h⟩)
      simp only [uniqueResourceName_eq hc hlo, Proc.run_do, Proc.run_pure]
      rfl

/-- Objects without a cluster name are skipped. -/
theorem run_forEachUnique_unnamed (body : Object S T → Api S T (Except Error Unit))
    (it : MapOrder String) (m : GoMap String (Object S T))
    (hl : ∀ o ∈ entries it (some m), labelledWith "" o = true) (s : Store S T) :
    (Proc.run (serve st order) (forEachUnique body it m) s).2 = s := by
  rw [forEachUnique, Proc.run_forEach]
  refine (List.foldl_ext _ (fun s _ => s) s ?_).trans (List.foldl_fixed _)
  intro s key hkey
  cases h : m.get key with
  | none => rfl
  | some o =>
      have hlo := hl o (mem_entries.mpr ⟨key, h⟩)
      simp only [uniqueResourceName_unnamed hlo, Proc.run_pure]

/-- What a full list deletes: the objects of the cluster that it does not name. -/
def vanished (order : MapOrder ObjectKey) (s : Store S T) (c : String) (fullList : List String) :
    List (Object S T) :=
  (Client.labelled order s clusterLabel c).filter fun o =>
    !decide (metaNamespaceKey o.metadata ∈ fullList.map fun key => uniqueFullResourceName key c)

theorem run_handleFullList (body : Object S T → Api S T (Except Error Unit)) (fullList : List String)
    (s : Store S T) :
    (Proc.run (serve st order) (handleFullList body c fullList) s).2 =
      (vanished order s c fullList).foldl
        (fun s o => (Proc.run (serve st order) (body o) s).2) s := by
  rw [handleFullList, Proc.run_do, Client.run_list]
  show (Proc.run (serve st order) (Proc.forEach _ _) s).2 = _
  rw [Proc.run_forEach, vanished, List.foldl_filter]
  apply List.foldl_ext
  intro s o _
  by_cases h : metaNamespaceKey o.metadata ∈ fullList.map fun key => uniqueFullResourceName key c
  · simp [h]
  · simp [h]

end Loops

/-! ## A report as a sequence of writes -/

/-- The report names the object as created or changed. -/
def Updates {S T : Type} (body : ResourceStatus S T) (o : Object S T) : Prop :=
  ∃ m key, body.updateMap = some m ∧ m.get key = some o

/-- The report names the object as deleted. -/
def Deletes {S T : Type} (body : ResourceStatus S T) (o : Object S T) : Prop :=
  ∃ m key, body.delMap = some m ∧ m.get key = some o

/-- A write on one key, with what it does not leave alone there. -/
structure StoreWrite (S T : Type) where
  key : ObjectKey
  hits : Object S T → Prop
  apply : Store S T → Store S T

section ReportWrites

variable (t : ResourceType) (st : Strategy t.Status) (order : MapOrder ObjectKey)
  (it : MapOrder String) (c : String)

/-- A delete as a write. -/
def deleteWrite (o : t.Obj) : StoreWrite t.Spec t.Status :=
  ⟨(scopeOf t).key o.metadata, fun _ => True,
    fun s => (Proc.run (serve st order) (deleteObject (scopeOf t) o) s).2⟩

/-- A create-or-update as a write. -/
def updateWrite (o : t.Obj) : StoreWrite t.Spec t.Status :=
  ⟨(scopeOf t).key o.metadata, takesEffect t o,
    fun s => (Proc.run (serve st order) (createOrUpdateOf t o) s).2⟩

/-- The writes of the full list, found when the report arrives. -/
def listWrites (s : Store t.Spec t.Status) (body : ResourceStatus t.Spec t.Status) :
    List (StoreWrite t.Spec t.Status) :=
  match body.fullList with
  | some l => if takesListOf t l then (vanished order s c l).map (deleteWrite t st order) else []
  | none => []

/-- The writes of the two maps. -/
def mapWrites (body : ResourceStatus t.Spec t.Status) : List (StoreWrite t.Spec t.Status) :=
  if c = "" then []
  else (entries it body.updateMap).map (fun o => updateWrite t st order (central c o)) ++
    (entries it body.delMap).map fun o => deleteWrite t st order (central c o)

variable {t st order it c}

theorem mem_entries_updateMap {body : ResourceStatus t.Spec t.Status} {o : t.Obj} :
    o ∈ entries it body.updateMap ↔ Updates body o := by
  cases h : body.updateMap with
  | none => simp [entries, Updates, h]
  | some m => rw [mem_entries]; simp [Updates, h]

theorem mem_entries_delMap {body : ResourceStatus t.Spec t.Status} {o : t.Obj} :
    o ∈ entries it body.delMap ↔ Deletes body o := by
  cases h : body.delMap with
  | none => simp [entries, Deletes, h]
  | some m => rw [mem_entries]; simp [Deletes, h]

/-- The loop over a map that may be nil. -/
theorem run_mapPart (handle : t.Obj → Api t.Spec t.Status (Except Error Unit))
    (m : Option (GoMap String t.Obj)) (hl : ∀ o ∈ entries it m, labelledWith c o = true)
    (s : Store t.Spec t.Status) :
    (Proc.run (serve st order) (handleIfPresent (forEachUnique handle it) m) s).2 =
      (if c = "" then [] else entries it m).foldl
        (fun s o => (Proc.run (serve st order) (handle (central c o)) s).2) s := by
  cases m with
  | none => simp [entries, handleIfPresent]
  | some m =>
      by_cases hc : c = ""
      · subst hc
        rw [if_pos rfl]
        exact run_forEachUnique_unnamed handle it m hl s
      · rw [if_neg hc]
        exact run_forEachUnique hc handle it m hl s

/-- A report is the sequence of its writes. -/
theorem run_handleReportOf {body : ResourceStatus t.Spec t.Status}
    (hu : ∀ o, Updates body o → labelledWith c o = true)
    (hd : ∀ o, Deletes body o → labelledWith c o = true) (s : Store t.Spec t.Status) :
    (Proc.run (serve st order) (handleReportOf t it c body) s).2 =
      (listWrites t st order c s body ++ mapWrites t st order it c body).foldl
        (fun s w => w.apply s) s := by
  have hlist : (Proc.run (serve st order)
      (handleIfTaken (deleteObject (scopeOf t)) (takesListOf t) c body.fullList) s).2 =
      (listWrites t st order c s body).foldl (fun s w => w.apply s) s := by
    unfold listWrites handleIfTaken
    cases body.fullList with
    | none => rfl
    | some l =>
        by_cases htake : takesListOf t l = true
        · simp only [htake, if_true, List.foldl_map]
          exact run_handleFullList _ l s
        · simp [htake]
  rw [handleReportOf_eq, handleReport, Proc.run_do, Proc.run_do, hlist]
  rw [handleUpdateMap, handleDelMap,
    run_mapPart _ body.delMap fun o ho => hd o (mem_entries_delMap.mp ho),
    run_mapPart _ body.updateMap fun o ho => hu o (mem_entries_updateMap.mp ho),
    List.foldl_append, mapWrites]
  by_cases hc : c = ""
  · simp [hc]
  · rw [if_neg hc, if_neg hc, if_neg hc, List.foldl_append, List.foldl_map, List.foldl_map]
    rfl

/-- Every object is kept where the clients of its kind look for it; nodes, for one, have no
namespace. -/
def Scoped (t : ResourceType) (s : Store t.Spec t.Status) : Prop :=
  ∀ k x, s.get k = some x → (scopeOf t).ns k.namespace = k.namespace

/-- The vanished objects are of the cluster, and are deleted where they are kept. -/
theorem of_mem_vanished {s : Store t.Spec t.Status} (hs : Scoped t s) {l : List String} {o : t.Obj}
    (h : o ∈ vanished order s c l) :
    s.get ((scopeOf t).key o.metadata) = some o ∧ labelledWith c o = true := by
  obtain ⟨hget, hlabel⟩ := Client.mem_labelled.mp (List.mem_filter.mp h).1
  have hns : (scopeOf t).ns o.metadata.namespace = o.metadata.namespace := hs _ _ hget
  have hkey : (scopeOf t).key o.metadata = o.metadata.key := by
    rw [Scope.key, ObjectMeta.key, hns]
  exact ⟨by rw [hkey]; exact hget, by rw [labelledWith, hlabel, beq_self_eq_true]⟩

variable {d : String} {body : ResourceStatus t.Spec t.Status} {s : Store t.Spec t.Status}

theorem mem_listWrites {w : StoreWrite t.Spec t.Status} (h : w ∈ listWrites t st order c s body) :
    ∃ l, ∃ o ∈ vanished order s c l, w = deleteWrite t st order o := by
  unfold listWrites at h
  cases hl : body.fullList with
  | none => simp [hl] at h
  | some l =>
      simp only [hl, List.mem_ite_nil_right, List.mem_map] at h
      obtain ⟨-, o, ho, rfl⟩ := h
      exact ⟨l, o, ho, rfl⟩

theorem mem_mapWrites {w : StoreWrite t.Spec t.Status} :
    w ∈ mapWrites t st order it c body ↔ c ≠ "" ∧
      ((∃ o, Updates body o ∧ w = updateWrite t st order (central c o)) ∨
        ∃ o, Deletes body o ∧ w = deleteWrite t st order (central c o)) := by
  simp only [mapWrites, List.mem_ite_nil_left, List.mem_append, List.mem_map, mem_entries_updateMap,
    mem_entries_delMap, eq_comm]

/-- Every write of a report for `c` is by somebody else than `d`. -/
theorem touches_reportWrites (hcd : c ≠ d) (hu : ∀ o, Updates body o → labelledWith c o = true) :
    ∀ w ∈ listWrites t st order c s body ++ mapWrites t st order it c body,
      Touches Store.get (labelledWith d) w.key w.hits w.apply := by
  intro w hw
  rcases List.mem_append.mp hw with hw | hw
  · obtain ⟨l, o, -, rfl⟩ := mem_listWrites hw
    exact touches_delete o
  · rcases (mem_mapWrites.mp hw).2 with ⟨o, ho, rfl⟩ | ⟨o, -, rfl⟩
    · exact touches_createOrUpdateOf t st (hu o ho) hcd
    · exact touches_delete (central c o)

/-- The report spares the objects of cluster `d`: of those kept under the central name of an object
the report deletes there is none, and under that of one it updates there is none on which the update
would take effect. -/
def Spares (d c : String) (t : ResourceType) (s : Store t.Spec t.Status)
    (body : ResourceStatus t.Spec t.Status) : Prop :=
  c ≠ "" → ∀ x, labelledWith d x = true →
    (∀ o, Updates body o → s.get ((scopeOf t).key (central c o).metadata) = some x →
      ¬ takesEffect t (central c o) x) ∧
    ∀ o, Deletes body o → s.get ((scopeOf t).key (central c o).metadata) ≠ some x

/-- No write of the report hits an object of `d`, if and only if the report spares them. -/
theorem hitsNone_iff_spares (hcd : c ≠ d) (hs : Scoped t s) :
    (∀ w ∈ listWrites t st order c s body ++ mapWrites t st order it c body,
      ∀ x, owned Store.get (labelledWith d) s w.key = some x → ¬ w.hits x) ↔
      Spares d c t s body := by
  simp only [owned_eq_some]
  constructor
  · intro h hc x hx
    refine ⟨?_, ?_⟩
    · intro o ho hget
      exact h _ (List.mem_append_right _ (mem_mapWrites.mpr ⟨hc, Or.inl ⟨o, ho, rfl⟩⟩)) x ⟨hget, hx⟩
    · intro o ho hget
      exact h _ (List.mem_append_right _ (mem_mapWrites.mpr ⟨hc, Or.inr ⟨o, ho, rfl⟩⟩)) x ⟨hget, hx⟩
        trivial
  · rintro h w hw x ⟨hget, hx⟩
    rcases List.mem_append.mp hw with hw | hw
    · -- the full list only deletes objects labelled with its own cluster
      obtain ⟨l, o, ho, rfl⟩ := mem_listWrites hw
      obtain ⟨hkept, hlabel⟩ := of_mem_vanished hs ho
      obtain rfl : o = x := Option.some.inj (hkept.symm.trans hget)
      rw [labelledWith_ne hcd hlabel] at hx
      cases hx
    · obtain ⟨hc, ⟨o, ho, rfl⟩ | ⟨o, ho, rfl⟩⟩ := mem_mapWrites.mp hw
      · exact (h hc x hx).1 o ho hget
      · exact absurd hget ((h hc x hx).2 o ho)

/-- Writes keep every object where the clients of its kind look for it. -/
theorem scoped_foldl : ∀ {l : List (StoreWrite t.Spec t.Status)} {s : Store t.Spec t.Status},
    (∀ w ∈ l, (∃ m, w.key = (scopeOf t).key m) ∧
      Touches Store.get (labelledWith d) w.key w.hits w.apply) →
    Scoped t s → Scoped t (l.foldl (fun s w => w.apply s) s)
  | [], _, _, hs => hs
  | w :: l, s, h, hs => by
      obtain ⟨⟨m, hm⟩, htouch⟩ := h w (by simp)
      rw [List.foldl_cons]
      refine scoped_foldl (fun w' hw' => h w' (List.mem_cons_of_mem w hw')) ?_
      intro k x hx
      by_cases hk : k = w.key
      · rw [hk, hm]
        exact (scopeOf t).ns_ns m.namespace
      · rw [htouch.other s k hk] at hx
        exact hs k x hx

theorem reportWrites_keys :
    ∀ w ∈ listWrites t st order c s body ++ mapWrites t st order it c body,
      ∃ m, w.key = (scopeOf t).key m := by
  intro w hw
  rcases List.mem_append.mp hw with hw | hw
  · obtain ⟨l, o, -, rfl⟩ := mem_listWrites hw
    exact ⟨_, rfl⟩
  · rcases (mem_mapWrites.mp hw).2 with ⟨o, -, rfl⟩ | ⟨o, -, rfl⟩
    · exact ⟨_, rfl⟩
    · exact ⟨_, rfl⟩

end ReportWrites

/-! ## Reports of one change -/

section OneChange

variable {t : ResourceType} {ctx : Reporter.ReporterContext} {o o' : t.Obj}

theorem updates_sendUpdate :
    Updates (Reporter.sendUpdate t ctx o) o' ↔ o' = Reporter.reported t ctx o := by
  simp only [Updates, Reporter.sendUpdate, Option.some.injEq]
  constructor
  · rintro ⟨m, key, rfl, h⟩
    rw [GoMap.ofList, List.foldl_cons, List.foldl_nil, GoMap.get_set] at h
    split at h
    · exact (Option.some.inj h).symm
    · simp at h
  · rintro rfl
    exact ⟨_, _, rfl, GoMap.get_set_self _ _ _⟩

theorem deletes_sendDelete :
    Deletes (Reporter.sendDelete t ctx o) o' ↔ o' = Reporter.reported t ctx o :=
  updates_sendUpdate

theorem not_deletes_sendUpdate : ¬ Deletes (Reporter.sendUpdate t ctx o) o' := by
  rintro ⟨m, key, h, -⟩
  cases h

theorem not_updates_sendDelete : ¬ Updates (Reporter.sendDelete t ctx o) o' := by
  rintro ⟨m, key, h, -⟩
  cases h

/-- A reported object is labelled with its cluster. -/
theorem labelledWith_reported : labelledWith ctx.clusterName (Reporter.reported t ctx o) = true := by
  rw [labelledWith, Reporter.reported_labels]
  simp [Reporter.addLabelToResource, Reporter.setLabel, GoMap.get_set, clusterLabel,
    edgeVersionLabel]

end OneChange

/-! ## Whole reports -/

/-- Every object of the report carries the label `ote-cluster=c`. -/
def Report.LabelledWith (c : String) : Report → Prop
  | .resource _ (some body) => ∀ o, Updates body o ∨ Deletes body o → labelledWith c o = true
  | _ => True

/-- The report spares the objects of cluster `d`. -/
def Report.Spares (d c : String) (center : Center) : Report → Prop
  | .resource t (some body) => ControllerManager.Spares d c t (center t) body
  | _ => True

/-- All objects are kept where their clients look for them. -/
def Center.Scoped (center : Center) : Prop := ∀ t, ControllerManager.Scoped t (center t)

/-- The objects labelled `ote-cluster=d` are the same: none was created, changed or deleted. -/
def SameFor (d : String) (center center' : Center) : Prop :=
  ∀ t k, owned Store.get (labelledWith d) (center' t) k =
    owned Store.get (labelledWith d) (center t) k

section Center

variable {st : (t : ResourceType) → Strategy t.Status} {order : MapOrder ObjectKey} {c d : String}
  {center : Center} {r : MapOrder String × Report}

variable (st order) in
/-- What one report does to the objects of another cluster. -/
theorem processReport_cases (hcd : c ≠ d) (hl : r.2.LabelledWith c) (hs : center.Scoped) :
    (SameFor d center (processReport st order c center r) ↔ r.2.Spares d c center) ∧
    (processReport st order c center r).Scoped ∧
    ∀ t k x, owned Store.get (labelledWith d) (processReport st order c center r t) k = some x →
      owned Store.get (labelledWith d) (center t) k = some x := by
  obtain ⟨it, r⟩ := r
  match r, hl with
  | .elsewhere _, _ => exact ⟨by simp [SameFor, processReport, Report.Spares], hs, fun _ _ _ h => h⟩
  | .resource t none, _ =>
      exact ⟨by simp [SameFor, processReport, Report.Spares], hs, fun _ _ _ h => h⟩
  | .resource t (some body), hl =>
      have hu : ∀ o, Updates body o → labelledWith c o = true := fun o ho => hl o (Or.inl ho)
      have hd : ∀ o, Deletes body o → labelledWith c o = true := fun o ho => hl o (Or.inr ho)
      have htouch : ∀ w ∈ listWrites t (st t) order c (center t) body ++
          mapWrites t (st t) order it c body,
          Touches Store.get (labelledWith d) w.key w.hits w.apply := touches_reportWrites hcd hu
      have hself : processReport st order c center (it, .resource t (some body)) t =
          (listWrites t (st t) order c (center t) body ++
            mapWrites t (st t) order it c body).foldl (fun s w => w.apply s) (center t) := by
        rw [← run_handleReportOf hu hd]
        exact Function.update_self t _ center
      have hother : ∀ t', t' ≠ t →
          processReport st order c center (it, .resource t (some body)) t' = center t' :=
        fun t' ht => Function.update_of_ne ht _ center
      refine ⟨?_, ?_, ?_⟩
      · rw [Report.Spares, ← hitsNone_iff_spares hcd (hs t), ← owned_foldl_iff htouch, ← hself]
        constructor
        · exact fun hsame k => hsame t k
        · intro hsame t' k
          by_cases ht : t' = t
          · subst ht
            exact hsame k
          · rw [hother t' ht]
      · intro t'
        by_cases ht : t' = t
        · subst ht
          rw [hself]
          exact scoped_foldl (fun w hw => ⟨reportWrites_keys w hw, htouch w hw⟩) (hs t')
        · rw [hother t' ht]
          exact hs t'
      · intro t' k x hx
        by_cases ht : t' = t
        · subst ht
          rw [hself] at hx
          exact owned_of_foldl htouch hx
        · rwa [hother t' ht] at hx

/-- Nor does a list of reports add to the objects of another cluster. -/
theorem owned_of_processEdgeReport (hcd : c ≠ d) :
    ∀ {reports : List (MapOrder String × Report)} {center : Center},
      (∀ r ∈ reports, r.2.LabelledWith c) → center.Scoped → ∀ {t k x},
      owned Store.get (labelledWith d) (processEdgeReport st order c center reports t) k = some x →
      owned Store.get (labelledWith d) (center t) k = some x
  | [], _, _, _, _, _, _, hx => hx
  | r :: reports, center, hl, hs, t, k, x, hx => by
      obtain ⟨-, hscoped, hshrink⟩ := processReport_cases st order hcd (hl r (by simp)) hs
      exact hshrink t k x
        (owned_of_processEdgeReport hcd (fun r' hr' => hl r' (List.mem_cons_of_mem r hr')) hscoped hx)

end Center

/-- A deployment of an edge cluster. -/
def edgeDeployment (name resourceVersion : String) : ResourceType.deployment.Obj where
  metadata := ⟨name, "default", none, resourceVersion, "", none⟩
  spec := ⟨"", "", some 1, 0⟩
  status := ⟨1, 1, 1, 0⟩

/-- A centre that has got one deployment, `a` of cluster `b-c`. -/
def centerOfBC : Center
  | .deployment => Store.put ∅ ⟨"default", "a-b-c"⟩
      (central "b-c" (Reporter.reported .deployment ⟨"b-c", false⟩ (edgeDeployment "a" "7")))
  | _ => ∅

/-- A server that keeps the status of new objects. -/
def plainStrategy (t : ResourceType) : Strategy t.Status := ⟨id, true⟩

end OteStack.ControllerManager
