/-
# OteStack.Reporter.Notifications — the informer's notifications and the reports they lead to.

The node, deployment, daemonset and service reporters of `pkg/reporter` register three functions with an
informer.  Additions and changes are reported, the latter only if the resource version is another one.  The
delete function is called with the object or, when the watch has missed the deletion, with a
`cache.DeletedFinalStateUnknown` that wraps its last known state.  It asserts the type of an object and
returns if the assertion fails, so a deletion in a wrapper is not reported.

`reports_replay_iff` says what follows for a whole history: who replays the reports has the keys of the
informer's cache, if and only if no key was last notified in a wrapper.
-/
import Mathlib.Data.Finset.Basic
import OteStack.Lib.StepSystem
import OteStack.Reporter.Resource

namespace OteStack.Reporter

open OteStack.Lib (GoMap runSteps runSteps_history)
open OteStack.Lib.KubeApi

/-! ## Reporters -/

/-- The reporters that send a message for every change. -/
inductive ChangeReporter where
  | node
  | deployment
  | daemonset
  | service
  deriving DecidableEq, Repr

namespace ChangeReporter

/-- What the reporter reports. -/
abbrev kind : ChangeReporter → ResourceType
  | node => .node
  | deployment => .deployment
  | daemonset => .daemonset
  | service => .service

/-- `handleNode` and its like. -/
def handle : (r : ChangeReporter) → ReporterContext → r.kind.Obj → ResourceStatus r.kind.Spec r.kind.Status
  | node => handleNode
  | deployment => handleDeployment
  | daemonset => handleDaemonset
  | service => handleService

/-- `deleteNode` and its like, for an object. -/
def delete : (r : ChangeReporter) → ReporterContext → r.kind.Obj → ResourceStatus r.kind.Spec r.kind.Status
  | node => deleteNode
  | deployment => deleteDeployment
  | daemonset => deleteDaemonset
  | service => deleteService

theorem handle_eq (r : ChangeReporter) : r.handle = sendUpdate r.kind := by
  cases r <;> rfl

theorem delete_eq (r : ChangeReporter) : r.delete = sendDelete r.kind := by
  cases r <;> rfl

end ChangeReporter

/-! ## Notifications -/

/-- What a delete function is called with: the object, or `cache.DeletedFinalStateUnknown`. -/
inductive Deletion (t : ResourceType) where
  | object (o : t.Obj)
  | finalStateUnknown (key : String) (obj : t.Obj)

/-- A notification of an informer. -/
inductive Notification (t : ResourceType) where
  | add (o : t.Obj)
  | update (old new : t.Obj)
  | delete (d : Deletion t)

/-- The key of the object that a notification is about. -/
def Notification.key {t : ResourceType} : Notification t → String
  | add o => metaNamespaceKey o.metadata
  | update _ new => metaNamespaceKey new.metadata
  | delete (.object o) => metaNamespaceKey o.metadata
  | delete (.finalStateUnknown key _) => key

/-- The notification is of a deletion that the watch has missed. -/
def Notification.isUnknown {t : ResourceType} : Notification t → Bool
  | delete (.finalStateUnknown _ _) => true
  | _ => false

variable (r : ChangeReporter) (ctx : ReporterContext)

/-- What is sent on a notification, if anything. -/
def onNotification : Notification r.kind → Option (ResourceStatus r.kind.Spec r.kind.Status)
  | .add o => some (r.handle ctx o)
  | .update old new =>
      -- a resync sends the object as it is
      if new.metadata.resourceVersion = old.metadata.resourceVersion then none
      else some (r.handle ctx new)
  | .delete (.object o) => some (r.delete ctx o)
  -- not an object: the type assertion fails
  | .delete (.finalStateUnknown _ _) => none

/-- The reports that are sent, in the order in which they are made. -/
def reports (ns : List (Notification r.kind)) : List (ResourceStatus r.kind.Spec r.kind.Status) :=
  ns.filterMap (onNotification r ctx)

/-! ## The cache and its image -/

/-- The keys of a map that may be nil. -/
def keysOf {V : Type} : Option (GoMap String V) → Finset String
  | none => ∅
  | some m => m.keys

/-- Replaying a report: updates insert keys, deletes remove them. -/
def replay {S T : Type} (keys : Finset String) (report : ResourceStatus S T) : Finset String :=
  (keys ∪ keysOf report.updateMap) \ keysOf report.delMap

/-- The keys in the informer's cache.  An object is added when it is not there, changed and deleted when it
is, and a wrapper has the key of the object in it. -/
def cacheStep {t : ResourceType} (cache : Finset String) : Notification t → Option (Finset String)
  | .add o =>
      if metaNamespaceKey o.metadata ∈ cache then none else some (insert (metaNamespaceKey o.metadata) cache)
  | .update old new =>
      if metaNamespaceKey old.metadata = metaNamespaceKey new.metadata ∧
          metaNamespaceKey new.metadata ∈ cache then some cache
      else none
  | .delete (.object o) =>
      if metaNamespaceKey o.metadata ∈ cache then some (cache.erase (metaNamespaceKey o.metadata)) else none
  | .delete (.finalStateUnknown key obj) =>
      if metaNamespaceKey obj.metadata = key ∧ key ∈ cache then some (cache.erase key) else none

/-- The last notification about a key. -/
def lastNotification {t : ResourceType} (ns : List (Notification t)) (key : String) :
    Option (Notification t) :=
  (ns.filter fun n => n.key = key).getLast?

/-- The last notification about the key is of a deletion that the watch has missed. -/
def Missed {t : ResourceType} (ns : List (Notification t)) (key : String) : Prop :=
  (lastNotification ns key).any Notification.isUnknown = true

theorem missed_append {t : ResourceType} {ns : List (Notification t)} {n : Notification t} {key : String} :
    Missed (ns ++ [n]) key ↔ if n.key = key then n.isUnknown = true else Missed ns key := by
  unfold Missed lastNotification
  by_cases hkey : n.key = key
  · simp [hkey]
  · simp [hkey]

/-- The keys that a report names. -/
theorem keysOf_single {t : ResourceType} (ctx : ReporterContext) (o : t.Obj) :
    keysOf (some (GoMap.ofList [(metaNamespaceKey (reported t ctx o).metadata, reported t ctx o)])) =
      {metaNamespaceKey o.metadata} := by
  have hkey : metaNamespaceKey (reported t ctx o).metadata = metaNamespaceKey o.metadata := by
    simp [metaNamespaceKey]
  ext key
  rw [hkey, keysOf, GoMap.mem_keys, Finset.mem_singleton, GoMap.ofList]
  by_cases h : key = metaNamespaceKey o.metadata
  · simp [h]
  · simp [GoMap.get_set_of_ne _ h, h]

section Replay

variable {r ctx} {ns : List (Notification r.kind)} {cache cache' : Finset String}
  {n : Notification r.kind}

theorem replay_handle (keys : Finset String) (o : r.kind.Obj) :
    replay keys (r.handle ctx o) = insert (metaNamespaceKey o.metadata) keys := by
  rw [r.handle_eq, replay, sendUpdate]
  simp only [keysOf_single]
  rw [keysOf, Finset.sdiff_empty, Finset.union_comm]
  rfl

theorem replay_delete (keys : Finset String) (o : r.kind.Obj) :
    replay keys (r.delete ctx o) = keys.erase (metaNamespaceKey o.metadata) := by
  rw [r.delete_eq, replay, sendDelete]
  simp only [keysOf_single]
  rw [keysOf, Finset.union_empty, Finset.erase_eq]

/-- A notification changes the cache at its own key only. -/
theorem mem_cacheStep_of_ne (hstep : cacheStep cache n = some cache') {key : String} (hkey : key ≠ n.key) :
    key ∈ cache' ↔ key ∈ cache := by
  unfold cacheStep at hstep
  split at hstep
  · obtain ⟨-, hcache⟩ := Option.ite_none_left_eq_some.mp hstep
    rw [← Option.some.inj hcache, Finset.mem_insert]
    exact or_iff_right hkey
  · obtain ⟨-, hcache⟩ := Option.ite_none_right_eq_some.mp hstep
    rw [Option.some.inj hcache]
  · obtain ⟨-, hcache⟩ := Option.ite_none_right_eq_some.mp hstep
    rw [← Option.some.inj hcache, Finset.mem_erase]
    exact and_iff_right hkey
  · obtain ⟨-, hcache⟩ := Option.ite_none_right_eq_some.mp hstep
    rw [← Option.some.inj hcache, Finset.mem_erase]
    exact and_iff_right hkey

/-- What is sent on a notification is about its key only. -/
theorem mem_replay_of_ne {keys : Finset String} {key : String} (hkey : key ≠ n.key) :
    key ∈ (onNotification r ctx n).toList.foldl replay keys ↔ key ∈ keys := by
  unfold onNotification
  split
  · simp only [Option.toList_some, List.foldl_cons, List.foldl_nil, replay_handle, Finset.mem_insert]
    exact or_iff_right hkey
  · split
    · rfl
    · simp only [Option.toList_some, List.foldl_cons, List.foldl_nil, replay_handle, Finset.mem_insert]
      exact or_iff_right hkey
  · simp only [Option.toList_some, List.foldl_cons, List.foldl_nil, replay_delete, Finset.mem_erase]
    exact and_iff_right hkey
  · rfl

/-- The reports of one more notification. -/
theorem reports_append : reports r ctx (ns ++ [n]) = reports r ctx ns ++ (onNotification r ctx n).toList := by
  unfold reports
  rw [List.filterMap_append]
  cases h : onNotification r ctx n with
  | none => simp [h]
  | some report => simp [h]

/-- The replayed reports have the keys of the cache, and those that were last notified in a wrapper, which
are not in the cache. -/
def Mirrors (r : ChangeReporter) (ctx : ReporterContext) (ns : List (Notification r.kind))
    (cache : Finset String) : Prop :=
  ∀ key, (key ∈ (reports r ctx ns).foldl replay ∅ ↔ key ∈ cache ∨ Missed ns key) ∧
    (Missed ns key → key ∉ cache)

theorem Mirrors.step (h : Mirrors r ctx ns cache) (hstep : cacheStep cache n = some cache') :
    Mirrors r ctx (ns ++ [n]) cache' := by
  intro key
  obtain ⟨hkeys, hmissed⟩ := h key
  rw [reports_append, List.foldl_append, missed_append]
  by_cases hkey : n.key = key
  · subst key
    rw [if_pos rfl]
    cases n with
    | add o =>
        obtain ⟨-, hcache⟩ := Option.ite_none_left_eq_some.mp hstep
        rw [← Option.some.inj hcache]
        simp only [onNotification, Option.toList_some, List.foldl_cons, List.foldl_nil, replay_handle]
        simp [Notification.key, Notification.isUnknown]
    | update old new =>
        obtain ⟨⟨-, hmem⟩, hcache⟩ := Option.ite_none_right_eq_some.mp hstep
        rw [← Option.some.inj hcache]
        have hreplayed := hkeys.mpr (Or.inl hmem)
        simp only [onNotification]
        split
        · exact ⟨iff_of_true hreplayed (Or.inl hmem), by simp [Notification.isUnknown]⟩
        · simp only [Option.toList_some, List.foldl_cons, List.foldl_nil, replay_handle]
          exact ⟨iff_of_true (Finset.mem_insert_self _ _) (Or.inl hmem), by simp [Notification.isUnknown]⟩
    | delete d =>
        cases d with
        | object o =>
            obtain ⟨-, hcache⟩ := Option.ite_none_right_eq_some.mp hstep
            rw [← Option.some.inj hcache]
            simp only [onNotification, Option.toList_some, List.foldl_cons, List.foldl_nil, replay_delete]
            simp [Notification.key, Notification.isUnknown]
        | finalStateUnknown k obj =>
            -- nothing is sent, and the key is still among the replayed ones
            obtain ⟨⟨-, hmem⟩, hcache⟩ := Option.ite_none_right_eq_some.mp hstep
            rw [← Option.some.inj hcache]
            have hreplayed := hkeys.mpr (Or.inl hmem)
            exact ⟨iff_of_true hreplayed (Or.inr rfl), fun _ => Finset.notMem_erase _ _⟩
  · rw [if_neg hkey, mem_replay_of_ne (Ne.symm hkey), mem_cacheStep_of_ne hstep (Ne.symm hkey)]
    exact ⟨hkeys, hmissed⟩

end Replay

/-- In every history of an informer's cache, the reports that are sent give the keys of the cache when they
are replayed, if and only if no key was last notified in a `DeletedFinalStateUnknown`. -/
theorem reports_replay_iff (r : ChangeReporter) (ctx : ReporterContext) (ns : List (Notification r.kind))
    {cache : Finset String} (hrun : runSteps cacheStep ∅ ns = some cache) :
    (reports r ctx ns).foldl replay ∅ = cache ↔ ∀ key, ¬ Missed ns key := by
  have hstart : Mirrors r ctx [] ∅ := by
    intro key
    simp [reports, Missed, lastNotification]
  have hend : Mirrors r ctx ([] ++ ns) cache :=
    runSteps_history (I := Mirrors r ctx) (fun h hstep => h.step hstep) hstart hrun
  rw [List.nil_append] at hend
  constructor
  · intro heq key hmissed
    have hmem := (hend key).1.mpr (Or.inr hmissed)
    rw [heq] at hmem
    exact (hend key).2 hmissed hmem
  · intro hnone
    ext key
    rw [(hend key).1]
    exact or_iff_left (hnone key)

/-! ## A node -/

/-- Without wrappers no deletion is missed. -/
theorem not_missed_of_forall {t : ResourceType} {ns : List (Notification t)}
    (h : ∀ n ∈ ns, n.isUnknown = false) (key : String) : ¬ Missed ns key := by
  unfold Missed
  cases hlast : lastNotification ns key with
  | none => simp
  | some n =>
      have hmem : n ∈ ns := List.mem_of_mem_filter (List.mem_of_getLast? hlast)
      rw [Option.any_some, h n hmem]
      exact Bool.false_ne_true

/-- The node `n1`. -/
def nodeN1 : ResourceType.node.Obj where
  metadata := ⟨"n1", "", none, "7", "", none⟩
  spec := ⟨"", false⟩
  status := ⟨[], "", [], none, none, []⟩

/-- The node comes and goes, and the watch sees both. -/
def nodeSeen : List (Notification ChangeReporter.node.kind) := [.add nodeN1, .delete (.object nodeN1)]

/-- The node comes and goes, and the watch misses that it goes. -/
def nodeMissed : List (Notification ChangeReporter.node.kind) :=
  [.add nodeN1, .delete (.finalStateUnknown "n1" nodeN1)]

theorem reports_replay_nodeSeen :
    (reports .node ⟨"c1", false⟩ nodeSeen).foldl replay ∅ = ∅ :=
  (reports_replay_iff .node ⟨"c1", false⟩ nodeSeen (by decide)).mpr (not_missed_of_forall (by decide))

/-- Nothing is reported of a deletion that the watch has missed: the node is no longer in the cache, and
still in the image. -/
theorem reports_replay_nodeMissed :
    runSteps cacheStep ∅ nodeMissed = some ∅ ∧
      (reports .node ⟨"c1", false⟩ nodeMissed).foldl replay ∅ = {"n1"} := by
  decide

end OteStack.Reporter
