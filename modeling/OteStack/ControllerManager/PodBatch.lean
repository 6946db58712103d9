/-
# OteStack.ControllerManager.PodBatch — a batch of pod changes, from the informer to the centre.

Between two flushes the pod reporter folds any number of creations, updates and deletions into two
maps; the centre then applies all updates and after them all deletes.  A pod that was deleted and
created again in one batch is in both maps, and the centre deletes it.

`Collected` says what the maps know about the edge after any history, notification by notification;
`get_applyUpdates` and `get_applyDeletes` say what one report of such maps does to every central key;
`podBatch_mirrors_iff` puts them together: the centre mirrors the edge again exactly when no pod that was
deleted in the batch exists at its end, and no foreign object with a higher version sits on the key of
a reported pod.
-/
import OteStack.Reporter.PodReporter
import OteStack.ControllerManager.Convergence

namespace OteStack.ControllerManager

open OteStack.Lib (GoMap MapOrder Proc runSteps runSteps_cons foldl_obs_of_notMem foldl_at_slot)
open OteStack.Lib.KubeApi
open OteStack.Lib.GoStrings (atoi)
open OteStack.Reporter (clusterLabel edgeVersionLabel ResourceType ResourceStatus ReporterContext
  PodSpec PodStatus Pod PodResourceStatus PodEvent reported reportedPod keyString keyString_inj
  ValidKey emptyPodStatus notify sendClusterMessageToSyncChan)

/-! ## The pods of the edge -/

/-- The version of a pod at the edge as a number. -/
def podVersion (p : Pod) : ℤ := (atoi p.metadata.resourceVersion).getD 0

/-- A pod as the edge's API server keeps it, while it is not being deleted. -/
def ValidPod (p : Pod) : Prop :=
  ValidKey p.metadata.key ∧ p.metadata.deletionTimestamp = none ∧
    atoi p.metadata.resourceVersion ≠ none

instance (p : Pod) : Decidable (ValidPod p) := inferInstanceAs (Decidable (_ ∧ _ ∧ _))

/-- The pods that exist at the edge, each under its key. -/
structure EdgePods where
  pods : GoMap ObjectKey Pod
  valid : ∀ k p, pods.get k = some p → p.metadata.key = k ∧ ValidPod p

/-- The pod under a key. -/
def EdgePods.get (e : EdgePods) (k : ObjectKey) : Option Pod := e.pods.get k

/-- A pod appears or changes. -/
def EdgePods.set (e : EdgePods) (p : Pod) (hp : ValidPod p) : EdgePods where
  pods := e.pods.set p.metadata.key p
  valid := by
    intro k q hq
    rw [GoMap.get_set] at hq
    split at hq
    · obtain rfl := Option.some.inj hq
      exact ⟨‹k = _›.symm, hp⟩
    · exact e.valid k q hq

/-- A pod disappears. -/
def EdgePods.remove (e : EdgePods) (k : ObjectKey) : EdgePods where
  pods := e.pods.delete k
  valid := by
    intro k' q hq
    rw [GoMap.get_delete] at hq
    split at hq
    · cases hq
    · exact e.valid k' q hq

/-- One step in the life of the edge's pods: a pod appears or changes, with a version that is not
lower than before, or an existing pod disappears. -/
def EdgePods.step (e : EdgePods) : PodEvent → Option EdgePods
  | .handle p =>
      if h : ValidPod p ∧ (e.get p.metadata.key).all (fun q => podVersion q ≤ podVersion p)
      then some (e.set p h.1) else none
  | .delete p => if e.get p.metadata.key = none then none else some (e.remove p.metadata.key)

/-- Some notification of the batch created or changed the pod. -/
def Handled (batch : List PodEvent) (k : ObjectKey) : Prop :=
  ∃ p, .handle p ∈ batch ∧ p.metadata.key = k

/-- Some notification of the batch deleted the pod. -/
def Deleted (batch : List PodEvent) (k : ObjectKey) : Prop :=
  ∃ p, .delete p ∈ batch ∧ p.metadata.key = k

theorem edgeStep_handle {e e' : EdgePods} {p : Pod} (h : e.step (.handle p) = some e') :
    ValidPod p ∧ (∀ q, e.get p.metadata.key = some q → podVersion q ≤ podVersion p) ∧
      ∀ k, e'.get k = if k = p.metadata.key then some p else e.get k := by
  simp only [EdgePods.step] at h
  split at h
  · rename_i hok
    obtain rfl := Option.some.inj h
    refine ⟨hok.1, ?_, fun k => GoMap.get_set _ _ _ _⟩
    intro q hq
    simpa [hq] using hok.2
  · cases h

theorem edgeStep_delete {e e' : EdgePods} {p : Pod} (h : e.step (.delete p) = some e') :
    ValidKey p.metadata.key ∧
      ∀ k, e'.get k = if k = p.metadata.key then none else e.get k := by
  simp only [EdgePods.step] at h
  split at h
  · cases h
  · rename_i hpresent
    obtain rfl := Option.some.inj h
    obtain ⟨q, hq⟩ := Option.ne_none_iff_exists'.mp hpresent
    obtain ⟨hkey, hvalid⟩ := e.valid _ q hq
    refine ⟨?_, fun k => GoMap.get_delete _ _ _⟩
    rw [← hkey]
    exact hvalid.1

/-! ## What the reporter has collected -/

/-- What the two maps know after a batch that led the edge from `e₀` to `e`. -/
structure Collected (ctx : ReporterContext) (e₀ : EdgePods) (batch : List PodEvent) (e : EdgePods)
    (m : PodResourceStatus) : Prop where
  updated : ∀ key r, m.updateMap.get key = some r → ∃ p, e.get p.metadata.key = some p ∧
    Handled batch p.metadata.key ∧ key = keyString p.metadata.key ∧ r = reportedPod ctx p
  removed : ∀ key r, m.delMap.get key = some r → ∃ p : Pod, ValidKey p.metadata.key ∧
    key = keyString p.metadata.key ∧ r = reported .pod ctx p
  deleted : ∀ k, ValidKey k → (m.delMap.get (keyString k) ≠ none ↔ Deleted batch k)
  deletedValid : ∀ k, Deleted batch k → ValidKey k
  silent : ∀ k, ValidKey k → m.updateMap.get (keyString k) = none →
    (Deleted batch k ∧ e.get k = none) ∨ (¬ Deleted batch k ∧ ¬ Handled batch k ∧ e.get k = e₀.get k)
  grown : ∀ k, ¬ Deleted batch k → ∀ q, e₀.get k = some q →
    ∃ p, e.get k = some p ∧ podVersion q ≤ podVersion p
  noList : m.fullList = []

theorem collected_nil (ctx : ReporterContext) (e : EdgePods) :
    Collected ctx e [] e emptyPodStatus where
  updated key r h := by simp [emptyPodStatus] at h
  removed key r h := by simp [emptyPodStatus] at h
  deleted k _ := by simp [emptyPodStatus, Deleted]
  deletedValid k hk := by simp [Deleted] at hk
  silent k _ _ := Or.inr ⟨by simp [Deleted], by simp [Handled], rfl⟩
  grown k _ q hq := ⟨q, hq, le_rfl⟩
  noList := rfl

theorem deleted_append {batch : List PodEvent} {ev : PodEvent} {k : ObjectKey} :
    Deleted (batch ++ [ev]) k ↔
      Deleted batch k ∨ ∃ p, ev = .delete p ∧ p.metadata.key = k := by
  simp only [Deleted, List.mem_append, List.mem_singleton, or_and_right, exists_or, eq_comm]

theorem handled_append {batch : List PodEvent} {ev : PodEvent} {k : ObjectKey} :
    Handled (batch ++ [ev]) k ↔
      Handled batch k ∨ ∃ p, ev = .handle p ∧ p.metadata.key = k := by
  simp only [Handled, List.mem_append, List.mem_singleton, or_and_right, exists_or, eq_comm]

theorem deleted_append_handle {batch : List PodEvent} {p : Pod} {k : ObjectKey} :
    Deleted (batch ++ [.handle p]) k ↔ Deleted batch k := by
  rw [deleted_append]
  simp

theorem deleted_append_delete {batch : List PodEvent} {p : Pod} {k : ObjectKey} :
    Deleted (batch ++ [.delete p]) k ↔ Deleted batch k ∨ k = p.metadata.key := by
  rw [deleted_append]
  simp [eq_comm]

theorem handled_append_handle {batch : List PodEvent} {p : Pod} {k : ObjectKey} :
    Handled (batch ++ [.handle p]) k ↔ Handled batch k ∨ k = p.metadata.key := by
  rw [handled_append]
  simp [eq_comm]

theorem handled_append_delete {batch : List PodEvent} {p : Pod} {k : ObjectKey} :
    Handled (batch ++ [.delete p]) k ↔ Handled batch k := by
  rw [handled_append]
  simp

section Notify

variable {ctx : ReporterContext} {e₀ e e' : EdgePods} {batch : List PodEvent}
  {m : PodResourceStatus} {p : Pod}

/-- The key under which a pod is collected. -/
theorem metaNamespaceKey_reportedPod :
    metaNamespaceKey (reportedPod ctx p).metadata = keyString p.metadata.key := by
  rw [Reporter.metaNamespaceKey_eq, Reporter.reportedPod_key]

theorem metaNamespaceKey_reported_pod :
    metaNamespaceKey (reported .pod ctx p).metadata = keyString p.metadata.key := by
  rw [Reporter.metaNamespaceKey_eq, Reporter.reported_key]

theorem get_updateMap_handle (m : PodResourceStatus) (key : String) :
    (notify ctx m (.handle p)).updateMap.get key =
      if key = keyString p.metadata.key then some (reportedPod ctx p) else m.updateMap.get key := by
  show ((m.updateMap.set _ _).get key) = _
  rw [GoMap.get_set, metaNamespaceKey_reportedPod]

theorem get_updateMap_delete (m : PodResourceStatus) (key : String) :
    (notify ctx m (.delete p)).updateMap.get key =
      if key = keyString p.metadata.key then none else m.updateMap.get key := by
  show ((m.updateMap.delete _).get key) = _
  rw [GoMap.get_delete, metaNamespaceKey_reported_pod]

theorem get_delMap_delete (m : PodResourceStatus) (key : String) :
    (notify ctx m (.delete p)).delMap.get key =
      if key = keyString p.metadata.key then some (reported .pod ctx p) else m.delMap.get key := by
  show ((m.delMap.set _ _).get key) = _
  rw [GoMap.get_set, metaNamespaceKey_reported_pod]

/-- A creation or update keeps the books right. -/
theorem Collected.handle (h : Collected ctx e₀ batch e m) (hstep : e.step (.handle p) = some e') :
    Collected ctx e₀ (batch ++ [.handle p]) e' (notify ctx m (.handle p)) := by
  obtain ⟨hvalid, hversion, hget⟩ := edgeStep_handle hstep
  refine ⟨?_, h.removed, ?_, fun k hk => h.deletedValid k (deleted_append_handle.mp hk), ?_, ?_, h.noList⟩
  · -- an entry of the update map is the pod as it is now, or one that this event does not concern
    intro key r hr
    rw [get_updateMap_handle] at hr
    split at hr
    · exact ⟨p, by rw [hget, if_pos rfl], handled_append_handle.mpr (Or.inr rfl), ‹_›,
        (Option.some.inj hr).symm⟩
    · rename_i hne
      obtain ⟨q, hq, hhan, rfl, rfl⟩ := h.updated key r hr
      refine ⟨q, ?_, handled_append_handle.mpr (Or.inl hhan), rfl, rfl⟩
      rw [hget, if_neg fun hk => hne (by rw [hk])]
      exact hq
  · intro k hk
    rw [deleted_append_handle]
    exact h.deleted k hk
  · -- a key without an entry is not that of the pod
    intro k hk hnone
    rw [get_updateMap_handle] at hnone
    split at hnone
    · cases hnone
    · rename_i hne
      have hkp : k ≠ p.metadata.key := fun hkp => hne (by rw [hkp])
      rw [deleted_append_handle, handled_append_handle, or_iff_left hkp, hget, if_neg hkp]
      exact h.silent k hk hnone
  · intro k hk q hq
    rw [deleted_append_handle] at hk
    obtain ⟨q', hq', hle⟩ := h.grown k hk q hq
    by_cases hkp : k = p.metadata.key
    · subst hkp
      exact ⟨p, by rw [hget, if_pos rfl], hle.trans (hversion q' hq')⟩
    · exact ⟨q', by rw [hget, if_neg hkp]; exact hq', hle⟩

/-- So does a deletion. -/
theorem Collected.delete (h : Collected ctx e₀ batch e m) (hstep : e.step (.delete p) = some e') :
    Collected ctx e₀ (batch ++ [.delete p]) e' (notify ctx m (.delete p)) := by
  obtain ⟨hvalid, hget⟩ := edgeStep_delete hstep
  have hstr : ∀ {k}, ValidKey k → (keyString k = keyString p.metadata.key ↔ k = p.metadata.key) :=
    fun hk => ⟨fun hs => keyString_inj hk hvalid hs, fun hs => by rw [hs]⟩
  refine ⟨?_, ?_, ?_, ?_, ?_, ?_, h.noList⟩
  · -- the entry of the pod itself is gone
    intro key r hr
    rw [get_updateMap_delete] at hr
    split at hr
    · cases hr
    · rename_i hne
      obtain ⟨q, hq, hq', rfl, rfl⟩ := h.updated key r hr
      refine ⟨q, ?_, handled_append_delete.mpr hq', rfl, rfl⟩
      rw [hget, if_neg fun hk => hne (by rw [hk])]
      exact hq
  · intro key r hr
    rw [get_delMap_delete] at hr
    split at hr
    · exact ⟨p, hvalid, ‹_›, (Option.some.inj hr).symm⟩
    · exact h.removed key r hr
  · intro k hk
    simp only [get_delMap_delete, deleted_append_delete, hstr hk]
    by_cases hkp : k = p.metadata.key
    · simp [hkp]
    · simp [hkp, h.deleted k hk]
  · intro k hk
    rcases deleted_append_delete.mp hk with hk | rfl
    · exact h.deletedValid k hk
    · exact hvalid
  · intro k hk hnone
    simp only [get_updateMap_delete, hstr hk] at hnone
    rw [deleted_append_delete, handled_append_delete, hget]
    by_cases hkp : k = p.metadata.key
    · exact Or.inl ⟨Or.inr hkp, by rw [if_pos hkp]⟩
    · rw [if_neg hkp] at hnone
      rw [if_neg hkp]
      simpa [hkp] using h.silent k hk hnone
  · intro k hk q hq
    rw [deleted_append_delete, not_or] at hk
    obtain ⟨q', hq', hle⟩ := h.grown k hk.1 q hq
    exact ⟨q', by rw [hget, if_neg hk.2]; exact hq', hle⟩

/-- After a whole batch the maps know what happened at the edge. -/
theorem collected_run : ∀ {rest : List PodEvent} {batch : List PodEvent} {e e' : EdgePods}
    {m : PodResourceStatus}, Collected ctx e₀ batch e m → runSteps EdgePods.step e rest = some e' →
    Collected ctx e₀ (batch ++ rest) e' (rest.foldl (notify ctx) m)
  | [], batch, e, e', m, h, hrun => by
      obtain rfl : e = e' := Option.some.inj hrun
      simpa using h
  | ev :: rest, batch, e, e', m, h, hrun => by
      obtain ⟨e₁, hstep, hrest⟩ := runSteps_cons.mp hrun
      have hnext : Collected ctx e₀ (batch ++ [ev]) e₁ (notify ctx m ev) := by
        cases ev with
        | handle p => exact h.handle hstep
        | delete p => exact h.delete hstep
      have hall := collected_run hnext hrest
      rwa [List.append_assoc, List.singleton_append] at hall

end Notify

/-! ## What the report does to the centre -/

section Slots

variable {c : String} {it : MapOrder String}

theorem centralKey_pod_inj {k k' : ObjectKey} (h : centralKey .pod c k = centralKey .pod c k') :
    k = k' := by
  obtain ⟨hns, hname⟩ : k.namespace = k'.namespace ∧ k.name ++ "-" ++ c = k'.name ++ "-" ++ c := by
    simpa [centralKey, scopeOf, podScope, uniqueFullResourceName] using h
  have hlist := congrArg String.toList hname
  simp only [String.toList_append, List.append_cancel_right_eq] at hlist
  cases k
  cases k'
  simp only [ObjectKey.mk.injEq]
  exact ⟨hns, String.toList_inj.mp hlist⟩

/-- Entries that are told apart by a value of theirs are ranged over once each. -/
theorem nodup_map_entries {S T β : Type} {m : GoMap String (Object S T)} {f : Object S T → β}
    (hf : ∀ key key' o o', m.get key = some o → m.get key' = some o' → f o = f o' → key = key') :
    ((entries it (some m)).map f).Nodup := by
  rw [entries, List.map_filterMap]
  refine List.Nodup.filterMap ?_ (it.nodup m)
  intro key key' b hb hb'
  obtain ⟨o, ho, rfl⟩ := Option.map_eq_some_iff.mp hb
  obtain ⟨o', ho', hoo'⟩ := Option.map_eq_some_iff.mp hb'
  exact hf key key' o o' ho ho' hoo'.symm

end Slots

/-- The flush at the end of a batch, and the handling of the report if there is one. -/
def processPodBatch (st : (t : ResourceType) → Strategy t.Status) (order : MapOrder ObjectKey)
    (it : MapOrder String) (ctx : ReporterContext) (center : Center) (batch : List PodEvent) :
    Center :=
  match (sendClusterMessageToSyncChan (batch.foldl (notify ctx) emptyPodStatus)).1 with
  | some body => processEdgeReport st order ctx.clusterName center [(it, .resource .pod (some body))]
  | none => center

section Loops

variable (st : Strategy PodStatus) (order : MapOrder ObjectKey) (it : MapOrder String) (c : String)

/-- The updates of a report. -/
def applyUpdates (s : Store PodSpec PodStatus) (updateMap : GoMap String Pod) :
    Store PodSpec PodStatus :=
  (entries it (some updateMap)).foldl
    (fun s o => (Proc.run (serve st order) (createOrUpdatePod (central c o)) s).2) s

/-- The deletes of a report. -/
def applyDeletes (s : Store PodSpec PodStatus) (delMap : GoMap String Pod) :
    Store PodSpec PodStatus :=
  (entries it (some delMap)).foldl
    (fun s o => (Proc.run (serve st order) (deleteObject podScope (central c o)) s).2) s

/-- Where the centre keeps a reported pod. -/
def podSlot (o : Pod) : ObjectKey := podScope.key (central c o).metadata

theorem podSlot_reportedPod (ctx : ReporterContext) (p : Pod) :
    podSlot c (reportedPod ctx p) = centralKey .pod c p.metadata.key :=
  key_central_reported (t := .pod) c (Reporter.resetPodSpecParameter p)

theorem podSlot_reported (ctx : ReporterContext) (p : Pod) :
    podSlot c (reported .pod ctx p) = centralKey .pod c p.metadata.key :=
  key_central_reported (t := .pod) c p

variable {st order it c}

/-- The deletes free the keys of their pods and nothing else. -/
theorem get_applyDeletes (s : Store PodSpec PodStatus) (delMap : GoMap String Pod)
    (kc : ObjectKey) :
    (applyDeletes st order it c s delMap).get kc =
      if kc ∈ (entries it (some delMap)).map (podSlot c) then none else s.get kc := by
  unfold applyDeletes
  generalize entries it (some delMap) = l
  induction l generalizing s with
  | nil => simp
  | cons o l ih =>
      rw [List.foldl_cons, ih, get_run_deleteObject, List.map_cons]
      by_cases hl : kc ∈ l.map (podSlot c)
      · rw [if_pos hl, if_pos (List.mem_cons_of_mem _ hl)]
      · simp only [List.mem_cons, hl, or_false, if_false]
        rfl

/-- An update leaves every key but its own. -/
theorem get_createOrUpdatePod_other {s : Store PodSpec PodStatus} {o : Pod} {kc : ObjectKey}
    (hk : kc ≠ podScope.key o.metadata) :
    (Proc.run (serve st order) (createOrUpdatePod o) s).2.get kc = s.get kc := by
  unfold createOrUpdatePod
  split
  · rw [deletePod, get_run_deleteObject, if_neg hk]
  · exact (upserts_pod st).other s o kc hk

theorem get_applyUpdates_other {s : Store PodSpec PodStatus} {updateMap : GoMap String Pod}
    {kc : ObjectKey} (hk : kc ∉ (entries it (some updateMap)).map (podSlot c)) :
    (applyUpdates st order it c s updateMap).get kc = s.get kc :=
  foldl_obs_of_notMem Store.get (podSlot c) _
    (fun _ _ _ _ hne => get_createOrUpdatePod_other hne) hk s

end Loops

section Flush

variable {st : (t : ResourceType) → Strategy t.Status} {order : MapOrder ObjectKey}
  {it : MapOrder String} {ctx : ReporterContext} {center : Center} {e₀ e : EdgePods}
  {batch : List PodEvent} {m : PodResourceStatus}

theorem entries_of_keys_eq_empty {S T : Type} {m : GoMap String (Object S T)} (h : m.keys = ∅) :
    entries it (some m) = [] := by
  rw [entries, (it.order_eq_nil_iff m).mpr h, List.filterMap_nil]

/-- The flush applies the collected updates and then the collected deletes. -/
theorem processPodBatch_eq (hc : ctx.clusterName ≠ "")
    (h : Collected ctx e₀ batch e (batch.foldl (notify ctx) emptyPodStatus)) :
    processPodBatch st order it ctx center batch .pod =
      applyDeletes (st .pod) order it ctx.clusterName
        (applyUpdates (st .pod) order it ctx.clusterName (center .pod)
          (batch.foldl (notify ctx) emptyPodStatus).updateMap)
        (batch.foldl (notify ctx) emptyPodStatus).delMap := by
  unfold processPodBatch
  generalize batch.foldl (notify ctx) emptyPodStatus = m at h ⊢
  by_cases hempty : m.updateMap.keys = ∅ ∧ m.delMap.keys = ∅ ∧ m.fullList = []
  · -- nothing is sent, and nothing would have been done
    rw [sendClusterMessageToSyncChan, if_pos hempty, applyDeletes, applyUpdates,
      entries_of_keys_eq_empty hempty.1, entries_of_keys_eq_empty hempty.2.1]
    rfl
  · rw [sendClusterMessageToSyncChan, if_neg hempty]
    show Function.update center .pod _ .pod = _
    rw [Function.update_self]
    refine (run_handleReportOf (t := .pod) ?_ ?_ _).trans ?_
    · rintro o ⟨u, key, ⟨⟩, hkey⟩
      obtain ⟨p, -, -, -, rfl⟩ := h.updated key o hkey
      exact labelledWith_reported
    · rintro o ⟨u, key, ⟨⟩, hkey⟩
      obtain ⟨p, -, -, rfl⟩ := h.removed key o hkey
      exact labelledWith_reported
    · have hlist : listWrites .pod (st .pod) order ctx.clusterName (center .pod)
          ⟨some m.updateMap, some m.delMap, some m.fullList⟩ = [] := by
        simp [listWrites, h.noList, takesListOf]
      rw [hlist, List.nil_append, mapWrites, if_neg hc, List.foldl_append, List.foldl_map,
        List.foldl_map]
      rfl

/-- The deletes address the pods that were deleted in the batch. -/
theorem mem_deleteSlots (c : String) (h : Collected ctx e₀ batch e m) {kc : ObjectKey} :
    kc ∈ (entries it (some m.delMap)).map (podSlot c) ↔
      ∃ k, Deleted batch k ∧ kc = centralKey .pod c k := by
  rw [List.mem_map]
  constructor
  · rintro ⟨o, ho, rfl⟩
    obtain ⟨key, hkey⟩ := mem_entries.mp ho
    obtain ⟨p, hvalid, rfl, rfl⟩ := h.removed key o hkey
    exact ⟨p.metadata.key, (h.deleted _ hvalid).mp (by rw [hkey]; simp), podSlot_reported c ctx p⟩
  · rintro ⟨k, hdel, rfl⟩
    have hvalid := h.deletedValid k hdel
    obtain ⟨o, ho⟩ := Option.ne_none_iff_exists'.mp ((h.deleted k hvalid).mpr hdel)
    obtain ⟨p, hvalid', hkey, rfl⟩ := h.removed _ o ho
    refine ⟨_, mem_entries.mpr ⟨_, ho⟩, ?_⟩
    rw [keyString_inj hvalid hvalid' hkey]
    exact podSlot_reported c ctx p

/-- The updates address pods that exist. -/
theorem mem_updateSlots (c : String) (h : Collected ctx e₀ batch e m) {kc : ObjectKey}
    (hk : kc ∈ (entries it (some m.updateMap)).map (podSlot c)) :
    ∃ p, m.updateMap.get (keyString p.metadata.key) = some (reportedPod ctx p) ∧
      e.get p.metadata.key = some p ∧ kc = centralKey .pod c p.metadata.key := by
  obtain ⟨o, ho, rfl⟩ := List.mem_map.mp hk
  obtain ⟨key, hkey⟩ := mem_entries.mp ho
  obtain ⟨p, hp, -, rfl, rfl⟩ := h.updated key o hkey
  exact ⟨p, hkey, hp, podSlot_reportedPod c ctx p⟩

/-- No two updates address the same pod. -/
theorem nodup_updateSlots (c : String) (h : Collected ctx e₀ batch e m) :
    ((entries it (some m.updateMap)).map (podSlot c)).Nodup := by
  apply nodup_map_entries
  intro key key' o o' ho ho' hslot
  obtain ⟨p, -, -, rfl, rfl⟩ := h.updated key o ho
  obtain ⟨p', -, -, rfl, rfl⟩ := h.updated key' o' ho'
  rw [podSlot_reportedPod, podSlot_reportedPod] at hslot
  rw [centralKey_pod_inj hslot]

/-- What one of the updates does to its pod. -/
theorem get_applyUpdates (st : Strategy PodStatus) (c : String) (h : Collected ctx e₀ batch e m)
    (s : Store PodSpec PodStatus) {p : Pod} (hp : e.get p.metadata.key = some p)
    (hu : m.updateMap.get (keyString p.metadata.key) = some (reportedPod ctx p)) :
    (∀ x, s.get (centralKey .pod c p.metadata.key) = some x →
      checkEdgeVersion (reportedPod ctx p).metadata x.metadata = false →
      (applyUpdates st order it c s m.updateMap).get (centralKey .pod c p.metadata.key) = some x) ∧
    ((∀ x, s.get (centralKey .pod c p.metadata.key) = some x →
      checkEdgeVersion (reportedPod ctx p).metadata x.metadata = true) →
      ∃ x', (applyUpdates st order it c s m.updateMap).get (centralKey .pod c p.metadata.key) =
        some x' ∧ PodImage (reportedPod ctx p) x') := by
  obtain ⟨-, hpod, hversion⟩ := (e.valid _ p hp).2
  have hlive : (central c (reportedPod ctx p)).metadata.deletionTimestamp = none :=
    Reporter.reported_deletionTimestamp .pod ctx (Reporter.resetPodSpecParameter p) hpod
  obtain ⟨s', hsame, hfinal⟩ := foldl_at_slot Store.get (podSlot c)
    (fun s o => (Proc.run (serve st order) (createOrUpdatePod (central c o)) s).2)
    (nodup_updateSlots c h) (fun _ _ _ _ hne => get_createOrUpdatePod_other hne)
    (reportedPod ctx p) (mem_entries.mpr ⟨_, hu⟩) s
  rw [← podSlot_reportedPod c ctx p, ← hsame]
  refine ⟨?_, ?_⟩
  · intro x hx hold
    have hrun : createOrUpdatePod (central c (reportedPod ctx p)) =
        createThenUpdate podScope createPod updatePod (central c (reportedPod ctx p)) :=
      if_neg (not_not.mpr hlive)
    rw [applyUpdates, hfinal, hrun]
    exact (upserts_pod st).newer s' _ x hx hold
  · intro hok
    have hnumber : edgeVersion (central c (reportedPod ctx p)).metadata ≠ none := by
      rw [reportedPod, edgeVersion_reported (t := .pod)]
      exact hversion
    obtain ⟨x', hx', himage⟩ := podImage_createOrUpdatePod st hlive hnumber hok
    refine ⟨x', ?_, himage.labels, himage.activeDeadlineSeconds, himage.tolerations, himage.status⟩
    rw [applyUpdates, hfinal]
    exact hx'

end Flush

/-! ## The mirror -/

/-- The pods labelled with the cluster at the centre are exactly the images of the edge's pods. -/
structure Mirrors (ctx : ReporterContext) (e : EdgePods) (s : Store PodSpec PodStatus) : Prop where
  shown : ∀ k p, e.get k = some p →
    ∃ x, s.get (centralKey .pod ctx.clusterName k) = some x ∧ PodImage (reportedPod ctx p) x
  only : ∀ kc x, s.get kc = some x → labelledWith ctx.clusterName x = true →
    ∃ k p, e.get k = some p ∧ kc = centralKey .pod ctx.clusterName k

/-- No pod that was deleted in the batch exists at its end. -/
def NoneRecreated (batch : List PodEvent) (e : EdgePods) : Prop :=
  ∀ k, Deleted batch k → e.get k = none

/-- No object of somebody else, with a version that the report does not reach, is kept under the
central name of a pod that the batch reports. -/
def NoneBlocked (ctx : ReporterContext) (batch : List PodEvent) (e : EdgePods)
    (s : Store PodSpec PodStatus) : Prop :=
  ∀ p x, e.get p.metadata.key = some p → Handled batch p.metadata.key →
    s.get (centralKey .pod ctx.clusterName p.metadata.key) = some x →
    labelledWith ctx.clusterName x = false →
    checkEdgeVersion (reportedPod ctx p).metadata x.metadata = true

section Mirror

variable {st : (t : ResourceType) → Strategy t.Status} {order : MapOrder ObjectKey}
  {it : MapOrder String} {ctx : ReporterContext} {center : Center} {e₀ e : EdgePods}
  {batch : List PodEvent} {m : PodResourceStatus} {s : Store PodSpec PodStatus}

theorem PodImage.labelledWith {p : Pod} {x : Pod} (h : PodImage (reportedPod ctx p) x) :
    labelledWith ctx.clusterName x = true := by
  rw [labelledWith_congr h.labels]
  exact labelledWith_reported

theorem edgeVersion_reportedPod (ctx : ReporterContext) {p : Pod} (hp : ValidPod p) :
    edgeVersion (reportedPod ctx p).metadata = some (podVersion p) := by
  obtain ⟨v, hv⟩ := Option.ne_none_iff_exists'.mp hp.2.2
  have hversion : edgeVersion (reportedPod ctx p).metadata = atoi p.metadata.resourceVersion :=
    edgeVersion_reported (t := .pod) ctx.clusterName (Reporter.resetPodSpecParameter p)
  rw [hversion, podVersion, hv, Option.getD_some]

/-- A pod that lives through the batch is reported with a version its central image does not
exceed. -/
theorem checkEdgeVersion_of_image (h : Collected ctx e₀ batch e m) {p q x : Pod}
    (hdel : ¬ Deleted batch p.metadata.key) (hp : e.get p.metadata.key = some p)
    (hq : e₀.get p.metadata.key = some q) (himage : PodImage (reportedPod ctx q) x) :
    checkEdgeVersion (reportedPod ctx p).metadata x.metadata = true := by
  obtain ⟨p', hp', hle⟩ := h.grown _ hdel q hq
  obtain rfl : p = p' := Option.some.inj (hp.symm.trans hp')
  refine checkEdgeVersion_iff.mpr ⟨podVersion p, podVersion q,
    edgeVersion_reportedPod ctx (e.valid _ p hp).2, ?_, hle⟩
  rw [edgeVersion_congr himage.labels]
  exact edgeVersion_reportedPod ctx (e₀.valid _ q hq).2

/-- A pod that the batch reports, and that exists at the end, is in the update map as it is. -/
theorem Collected.reports (h : Collected ctx e₀ batch e m) {p : Pod}
    (hp : e.get p.metadata.key = some p) (hhan : Handled batch p.metadata.key) :
    m.updateMap.get (keyString p.metadata.key) = some (reportedPod ctx p) := by
  have hvalid := (e.valid _ p hp).2.1
  cases hu : m.updateMap.get (keyString p.metadata.key) with
  | none =>
      rcases h.silent _ hvalid hu with ⟨-, hnone⟩ | ⟨-, hquiet, -⟩
      · rw [hp] at hnone
        cases hnone
      · exact absurd hhan hquiet
  | some r =>
      obtain ⟨p', hp', -, hkey, rfl⟩ := h.updated _ r hu
      have hsame := keyString_inj hvalid (e.valid _ p' hp').2.1 hkey
      rw [hsame, hp'] at hp
      rw [Option.some.inj hp]

/-- The centre after the report of what has been collected. -/
def afterReport (st : Strategy PodStatus) (order : MapOrder ObjectKey) (it : MapOrder String)
    (c : String) (s : Store PodSpec PodStatus) (m : PodResourceStatus) : Store PodSpec PodStatus :=
  applyDeletes st order it c (applyUpdates st order it c s m.updateMap) m.delMap

variable {st₁ : Strategy PodStatus}

/-- A pod deleted in the batch is gone from the centre. -/
theorem get_afterReport_deleted (c : String) (h : Collected ctx e₀ batch e m) {k : ObjectKey}
    (hdel : Deleted batch k) :
    (afterReport st₁ order it c s m).get (centralKey .pod c k) = none := by
  rw [afterReport, get_applyDeletes, if_pos ((mem_deleteSlots c h).mpr ⟨k, hdel, rfl⟩)]

/-- A pod not deleted in the batch is at the centre what the updates make it. -/
theorem get_afterReport_live (c : String) (h : Collected ctx e₀ batch e m) {kc : ObjectKey}
    (hlive : ∀ k, kc = centralKey .pod c k → ¬ Deleted batch k) :
    (afterReport st₁ order it c s m).get kc =
      (applyUpdates st₁ order it c s m.updateMap).get kc := by
  rw [afterReport, get_applyDeletes, if_neg]
  rw [mem_deleteSlots c h]
  rintro ⟨k, hdel, rfl⟩
  exact hlive k rfl hdel

theorem not_deleted_of_inj {c : String} {k : ObjectKey} (hdel : ¬ Deleted batch k) :
    ∀ k', centralKey .pod c k = centralKey .pod c k' → ¬ Deleted batch k' := by
  intro k' hk'
  rwa [← centralKey_pod_inj hk']

/-- A mirrored batch re-creates no pod and finds no key blocked. -/
theorem conditions_of_mirrors (h : Collected ctx e₀ batch e m)
    (hm : Mirrors ctx e (afterReport st₁ order it ctx.clusterName s m)) :
    NoneRecreated batch e ∧ NoneBlocked ctx batch e s := by
  have hgone : NoneRecreated batch e := by
    intro k hdel
    by_contra hpresent
    obtain ⟨p, hp⟩ := Option.ne_none_iff_exists'.mp hpresent
    obtain ⟨x, hx, -⟩ := hm.shown k p hp
    rw [get_afterReport_deleted _ h hdel] at hx
    cases hx
  refine ⟨hgone, ?_⟩
  intro p x hp hhan hx hforeign
  by_contra hold
  have hdel : ¬ Deleted batch p.metadata.key := fun hdel => by
    rw [hgone _ hdel] at hp
    cases hp
  -- the foreign object stays, and is not labelled as the image would be
  have hstays : (afterReport st₁ order it ctx.clusterName s m).get
      (centralKey .pod ctx.clusterName p.metadata.key) = some x := by
    rw [get_afterReport_live _ h (not_deleted_of_inj hdel)]
    exact (get_applyUpdates st₁ ctx.clusterName h s hp (h.reports hp hhan)).1 x hx
      (Bool.eq_false_iff.mpr hold)
  obtain ⟨x', hx', himage⟩ := hm.shown _ p hp
  obtain rfl : x = x' := Option.some.inj (hstays.symm.trans hx')
  rw [himage.labelledWith] at hforeign
  cases hforeign

/-- Without re-creations and blocked keys every pod of the edge is shown. -/
theorem shown_afterReport (h : Collected ctx e₀ batch e m) (hm : Mirrors ctx e₀ s)
    (hgone : NoneRecreated batch e) (hblock : NoneBlocked ctx batch e s) {k : ObjectKey} {p : Pod}
    (hp : e.get k = some p) :
    ∃ x, (afterReport st₁ order it ctx.clusterName s m).get (centralKey .pod ctx.clusterName k) =
      some x ∧ PodImage (reportedPod ctx p) x := by
  obtain ⟨rfl, hvalid⟩ := e.valid k p hp
  have hdel : ¬ Deleted batch p.metadata.key := fun hdel => by
    rw [hgone _ hdel] at hp
    cases hp
  rw [get_afterReport_live _ h (not_deleted_of_inj hdel)]
  by_cases hhan : Handled batch p.metadata.key
  · apply (get_applyUpdates st₁ ctx.clusterName h s hp (h.reports hp hhan)).2
    intro x hx
    cases hlabel : labelledWith ctx.clusterName x with
    | false => exact hblock p x hp hhan hx hlabel
    | true =>
        -- what the centre already shows under the name is an older image of this pod
        obtain ⟨k₀, q, hq, hk₀⟩ := hm.only _ x hx hlabel
        rw [← centralKey_pod_inj hk₀] at hq
        obtain ⟨x', hx', himage⟩ := hm.shown _ q hq
        obtain rfl : x = x' := Option.some.inj (hx.symm.trans hx')
        exact checkEdgeVersion_of_image h hdel hp hq himage
  · have hnone : m.updateMap.get (keyString p.metadata.key) = none := by
      by_contra hsome
      obtain ⟨r, hr⟩ := Option.ne_none_iff_exists'.mp hsome
      obtain ⟨p', hp', hhan', hkey, -⟩ := h.updated _ r hr
      rw [keyString_inj hvalid.1 (e.valid _ p' hp').2.1 hkey] at hhan
      exact hhan hhan'
    rcases h.silent _ hvalid.1 hnone with ⟨hdel', -⟩ | ⟨-, -, hsame⟩
    · exact absurd hdel' hdel
    · have hslot : centralKey .pod ctx.clusterName p.metadata.key ∉
          (entries it (some m.updateMap)).map (podSlot ctx.clusterName) := by
        intro hmem
        obtain ⟨p', hp', -, hkey⟩ := mem_updateSlots ctx.clusterName h hmem
        rw [← centralKey_pod_inj hkey, hnone] at hp'
        cases hp'
      rw [get_applyUpdates_other hslot]
      exact hm.shown _ p (hsame ▸ hp)

/-- What is labelled with the cluster after the report is a pod of the edge. -/
theorem only_afterReport (h : Collected ctx e₀ batch e m) (hm : Mirrors ctx e₀ s)
    {kc : ObjectKey} {x : Pod}
    (hx : (afterReport st₁ order it ctx.clusterName s m).get kc = some x)
    (hlabel : labelledWith ctx.clusterName x = true) :
    ∃ k p, e.get k = some p ∧ kc = centralKey .pod ctx.clusterName k := by
  have hlive : ∀ k, kc = centralKey .pod ctx.clusterName k → ¬ Deleted batch k := by
    rintro k rfl hdel
    rw [get_afterReport_deleted _ h hdel] at hx
    cases hx
  rw [get_afterReport_live _ h hlive] at hx
  by_cases hslot : kc ∈ (entries it (some m.updateMap)).map (podSlot ctx.clusterName)
  · obtain ⟨p, -, hp, hkc⟩ := mem_updateSlots ctx.clusterName h hslot
    exact ⟨p.metadata.key, p, hp, hkc⟩
  · rw [get_applyUpdates_other hslot] at hx
    obtain ⟨k, q, hq, rfl⟩ := hm.only kc x hx hlabel
    obtain ⟨rfl, hvalid⟩ := e₀.valid k q hq
    have hnone : m.updateMap.get (keyString q.metadata.key) = none := by
      by_contra hsome
      obtain ⟨r, hr⟩ := Option.ne_none_iff_exists'.mp hsome
      obtain ⟨p, hp, -, hkp, rfl⟩ := h.updated _ r hr
      apply hslot
      rw [keyString_inj hvalid.1 (e.valid _ p hp).2.1 hkp, ← podSlot_reportedPod _ ctx p]
      exact List.mem_map_of_mem (mem_entries.mpr ⟨_, hr⟩)
    rcases h.silent _ hvalid.1 hnone with ⟨hdel, -⟩ | ⟨-, -, hsame⟩
    · exact absurd hdel (hlive _ rfl)
    · exact ⟨_, q, hsame.trans hq, rfl⟩

end Mirror

/-- After a batch and the handling of its report the centre mirrors the edge again, if and only if no
pod deleted in the batch exists at its end and no key of a reported pod is blocked. -/
theorem podBatch_mirrors_iff (st : (t : ResourceType) → Strategy t.Status)
    (order : MapOrder ObjectKey) (it : MapOrder String) {ctx : ReporterContext}
    (hc : ctx.clusterName ≠ "") {e₀ e : EdgePods} {batch : List PodEvent}
    (hrun : runSteps EdgePods.step e₀ batch = some e) {center : Center}
    (hm : Mirrors ctx e₀ (center .pod)) :
    Mirrors ctx e (processPodBatch st order it ctx center batch .pod) ↔
      NoneRecreated batch e ∧ NoneBlocked ctx batch e (center .pod) := by
  have h : Collected ctx e₀ batch e (batch.foldl (notify ctx) emptyPodStatus) := by
    simpa using collected_run (collected_nil ctx e₀) hrun
  have heq : processPodBatch st order it ctx center batch .pod =
      afterReport (st .pod) order it ctx.clusterName (center .pod)
        (batch.foldl (notify ctx) emptyPodStatus) := processPodBatch_eq hc h
  rw [heq]
  constructor
  · exact conditions_of_mirrors h
  · rintro ⟨hgone, hblock⟩
    exact ⟨fun k p hp => shown_afterReport h hm hgone hblock hp,
      fun kc x hx hlabel => only_afterReport h hm hx hlabel⟩

/-- An edge without pods. -/
def noPods : EdgePods := ⟨∅, fun k p h => by simp at h⟩

theorem mirrors_noPods (ctx : ReporterContext) : Mirrors ctx noPods ∅ where
  shown k p h := by simp [noPods, EdgePods.get] at h
  only kc x h := by simp [Store.get_empty] at h

/-- A pod of an edge cluster. -/
def edgePod (name resourceVersion : String) : Pod where
  metadata := ⟨name, "default", none, resourceVersion, "", none⟩
  spec := ⟨["nginx"], "node", [], [], none, "default"⟩
  status := ⟨"Running", [], ""⟩

/-- A pod is created, deleted and created again in one batch: it exists at the edge, and the centre
does not have it. -/
theorem recreated_pod_is_lost :
    let batch := [PodEvent.handle (edgePod "web" "1"), PodEvent.delete (edgePod "web" "2"),
      PodEvent.handle (edgePod "web" "3")]
    Mirrors ⟨"c", false⟩ noPods ∅ ∧ ∃ e, runSteps EdgePods.step noPods batch = some e ∧
      e.get ⟨"default", "web"⟩ = some (edgePod "web" "3") ∧
      (processPodBatch plainStrategy MapOrder.sorted MapOrder.sorted ⟨"c", false⟩ (fun _ => ∅) batch
        .pod).get ⟨"default", "web-c"⟩ = none ∧
      ¬ Mirrors ⟨"c", false⟩ e (processPodBatch plainStrategy MapOrder.sorted MapOrder.sorted
        ⟨"c", false⟩ (fun _ => ∅) batch .pod) := by
  intro batch
  have hlost : (processPodBatch plainStrategy MapOrder.sorted MapOrder.sorted ⟨"c", false⟩
      (fun _ => ∅) batch .pod).get ⟨"default", "web-c"⟩ = none := by decide
  refine ⟨mirrors_noPods _, _, rfl, by decide, hlost, ?_⟩
  intro hm
  obtain ⟨x, hx, -⟩ := hm.shown ⟨"default", "web"⟩ (edgePod "web" "3") (by decide)
  exact absurd (hlost.symm.trans hx) (by simp)

/-- Two pods are created, one is changed and the other deleted: the centre follows. -/
theorem podBatch_mirrors_two_pods :
    let batch := [PodEvent.handle (edgePod "web" "1"), PodEvent.handle (edgePod "db" "2"),
      PodEvent.handle (edgePod "web" "3"), PodEvent.delete (edgePod "db" "4")]
    ∃ e, runSteps EdgePods.step noPods batch = some e ∧
      Mirrors ⟨"c", false⟩ e (processPodBatch plainStrategy MapOrder.sorted MapOrder.sorted
        ⟨"c", false⟩ (fun _ => ∅) batch .pod) := by
  refine ⟨_, rfl, (podBatch_mirrors_iff plainStrategy MapOrder.sorted MapOrder.sorted (by decide) rfl
    (mirrors_noPods _)).mpr ⟨?_, ?_⟩⟩
  · rintro k ⟨p, hp, rfl⟩
    obtain rfl : p = edgePod "db" "4" := by simpa using hp
    decide
  · intro p x _ _ hx
    simp [Store.get_empty] at hx

end OteStack.ControllerManager
