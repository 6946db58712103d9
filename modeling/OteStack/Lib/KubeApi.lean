/-
# OteStack.Lib.KubeApi — a Kubernetes API server for one kind of objects.

Objects are kept under namespace and name.  The server owns `resourceVersion` and `uid`: every write
gets a fresh version, and a write that names a version or a uid other than the stored one is a
conflict.  `Create` refuses an existing name, `Update` writes metadata and spec but not the status,
`UpdateStatus` writes the status but not the spec, `Delete` without grace period removes the object at
once, `List` answers the objects a label selects.

Requests that reach the server are taken to be valid otherwise; what a kind's strategy makes of the
status of a new object, and whether its status endpoint writes labels, are parameters (`Strategy`).
-/
import Mathlib.Data.Prod.Lex
import OteStack.Lib.GoMap
import OteStack.Lib.Proc

namespace OteStack.Lib.KubeApi

open OteStack.Lib (GoMap MapOrder Proc)

/-! ## Objects -/

/-- The labels of an object. -/
abbrev Labels := GoMap String String

/-- Where the server keeps an object.  The namespace of a cluster-scoped object is empty. -/
structure ObjectKey where
  «namespace» : String
  name : String
  deriving DecidableEq, Repr

/-- Keys in the order of the server's storage. -/
instance : LinearOrder ObjectKey :=
  LinearOrder.lift' (fun k => toLex (k.namespace, k.name)) fun k k' h => by
    cases k
    cases k'
    simpa using h

/-- The metadata that is read or written here; `labels` is a map that may be nil. -/
structure ObjectMeta where
  name : String
  «namespace» : String
  labels : Option Labels
  resourceVersion : String
  uid : String
  deletionTimestamp : Option Int
  deriving DecidableEq

namespace ObjectMeta

/-- Reading a label; a missing one, or one of a nil map, is the empty string. -/
def label (m : ObjectMeta) (key : String) : String :=
  ((m.labels.bind fun l => l.get key).getD "")

/-- The key under which the object is kept. -/
def key (m : ObjectMeta) : ObjectKey := ⟨m.namespace, m.name⟩

end ObjectMeta

/-- An object with spec `S` and status `T`. -/
structure Object (S T : Type) where
  metadata : ObjectMeta
  spec : S
  status : T
  deriving DecidableEq

/-- The key `cache.MetaNamespaceKeyFunc` gives an object. -/
def metaNamespaceKey (m : ObjectMeta) : String :=
  if m.namespace = "" then m.name else m.namespace ++ "/" ++ m.name

/-! ## The store -/

/-- What the server keeps: objects, each under its own key, and the version of the last write. -/
structure Store (S T : Type) where
  objects : GoMap ObjectKey (Object S T)
  revision : ℕ
  keyed : ∀ k o, objects.get k = some o → o.metadata.key = k

namespace Store

variable {S T : Type}

/-- The object under a key. -/
def get (s : Store S T) (k : ObjectKey) : Option (Object S T) := s.objects.get k

/-- A store without objects. -/
def empty : Store S T := ⟨∅, 0, by simp⟩

instance : EmptyCollection (Store S T) := ⟨empty⟩

/-- The object as it is written under a key, with a fresh version. -/
def stamped (s : Store S T) (k : ObjectKey) (o : Object S T) : Object S T :=
  { o with metadata := { o.metadata with
      name := k.name, «namespace» := k.namespace, resourceVersion := toString (s.revision + 1) } }

/-- Write an object. -/
def put (s : Store S T) (k : ObjectKey) (o : Object S T) : Store S T where
  objects := s.objects.set k (s.stamped k o)
  revision := s.revision + 1
  keyed := by
    intro k' o' h
    rw [GoMap.get_set] at h
    split at h
    · obtain rfl := Option.some.inj h
      subst k'
      rfl
    · exact s.keyed k' o' h

/-- Remove an object. -/
def remove (s : Store S T) (k : ObjectKey) : Store S T where
  objects := s.objects.delete k
  revision := s.revision + 1
  keyed := by
    intro k' o' h
    rw [GoMap.get_delete] at h
    split at h
    · cases h
    · exact s.keyed k' o' h

@[simp] theorem get_empty (k : ObjectKey) : (∅ : Store S T).get k = none := GoMap.get_empty k

theorem get_put (s : Store S T) (k k' : ObjectKey) (o : Object S T) :
    (s.put k o).get k' = if k' = k then some (s.stamped k o) else s.get k' :=
  GoMap.get_set s.objects k k' _

theorem get_remove (s : Store S T) (k k' : ObjectKey) :
    (s.remove k).get k' = if k' = k then none else s.get k' :=
  GoMap.get_delete s.objects k k'

@[simp] theorem get_put_self (s : Store S T) (k : ObjectKey) (o : Object S T) :
    (s.put k o).get k = some (s.stamped k o) := by
  rw [get_put, if_pos rfl]

theorem get_put_of_ne (s : Store S T) {k k' : ObjectKey} (h : k' ≠ k) (o : Object S T) :
    (s.put k o).get k' = s.get k' := by
  rw [get_put, if_neg h]

theorem key_of_get (s : Store S T) {k : ObjectKey} {o : Object S T} (h : s.get k = some o) :
    o.metadata.key = k :=
  s.keyed k o h

end Store

/-! ## Requests -/

/-- The reasons for which the server refuses a request. -/
inductive ApiError where
  | notFound
  | alreadyExists
  | conflict
  | badRequest
  deriving DecidableEq, Repr

/-- The calls of a typed client.  `create`, `update` and `updateStatus` name the namespace of the
client and take the name from the object. -/
inductive Request (S T : Type) where
  | get (k : ObjectKey)
  | create (ns : String) (o : Object S T)
  | update (ns : String) (o : Object S T)
  | updateStatus (ns : String) (o : Object S T)
  | delete (k : ObjectKey)
  | list (label value : String)

/-- What the server answers. -/
def Request.Answer {S T : Type} : Request S T → Type
  | .delete _ => Except ApiError Unit
  | .list _ _ => Except ApiError (List (Object S T))
  | _ => Except ApiError (Object S T)

/-- What differs between the kinds on the server's side: the status of a new object, and whether the
status endpoint also writes labels. -/
structure Strategy (T : Type) where
  createStatus : T → T
  statusWritesLabels : Bool

/-- A program against the server. -/
abbrev Api (S T : Type) (α : Type) := Proc (Request S T) Request.Answer α

section Server

variable {S T : Type} (st : Strategy T) (order : MapOrder ObjectKey)

/-- The write is based on another version of the object, or meant for another object. -/
def staleFor (o stored : Object S T) : Bool :=
  (o.metadata.resourceVersion != "" &&
    o.metadata.resourceVersion != stored.metadata.resourceVersion) ||
  (o.metadata.uid != "" && o.metadata.uid != stored.metadata.uid)

/-- The object a create request makes, before it is stamped. -/
def created (s : Store S T) (o : Object S T) : Object S T :=
  { o with
    metadata := { o.metadata with uid := toString (s.revision + 1), deletionTimestamp := none }
    status := st.createStatus o.status }

/-- The object an update request makes of the stored one, before it is stamped. -/
def updated (o stored : Object S T) : Object S T :=
  { o with
    metadata := { o.metadata with
      uid := stored.metadata.uid, deletionTimestamp := stored.metadata.deletionTimestamp }
    status := stored.status }

/-- The object a status update makes of the stored one, before it is stamped. -/
def statusUpdated (o stored : Object S T) : Object S T :=
  { stored with
    metadata := { stored.metadata with
      labels := if st.statusWritesLabels then o.metadata.labels else stored.metadata.labels }
    status := o.status }

/-- The server. -/
def serve (s : Store S T) : (x : Request S T) → x.Answer × Store S T
  | .get k =>
      match s.get k with
      | none => (.error .notFound, s)
      | some o => (.ok o, s)
  | .create ns o =>
      let k : ObjectKey := ⟨ns, o.metadata.name⟩
      if o.metadata.resourceVersion ≠ "" then (.error .badRequest, s)
      else match s.get k with
        | some _ => (.error .alreadyExists, s)
        | none => (.ok (s.stamped k (created st s o)), s.put k (created st s o))
  | .update ns o =>
      let k : ObjectKey := ⟨ns, o.metadata.name⟩
      match s.get k with
      | none => (.error .notFound, s)
      | some stored =>
          if staleFor o stored then (.error .conflict, s)
          else (.ok (s.stamped k (updated o stored)), s.put k (updated o stored))
  | .updateStatus ns o =>
      let k : ObjectKey := ⟨ns, o.metadata.name⟩
      match s.get k with
      | none => (.error .notFound, s)
      | some stored =>
          if staleFor o stored then (.error .conflict, s)
          else (.ok (s.stamped k (statusUpdated st o stored)), s.put k (statusUpdated st o stored))
  | .delete k =>
      match s.get k with
      | none => (.error .notFound, s)
      | some _ => (.ok (), s.remove k)
  | .list label value =>
      (.ok (((order.order s.objects).filterMap s.get).filter fun o =>
        o.metadata.labels.bind (fun l => l.get label) == some value), s)

end Server

/-! ## The typed client -/

namespace Client

variable {S T : Type}

/-- `Get`. -/
def get (k : ObjectKey) : Api S T (Except ApiError (Object S T)) := .call (.get k) .done

/-- `Create` in a namespace. -/
def create (ns : String) (o : Object S T) : Api S T (Except ApiError (Object S T)) :=
  .call (.create ns o) .done

/-- `Update` in a namespace. -/
def update (ns : String) (o : Object S T) : Api S T (Except ApiError (Object S T)) :=
  .call (.update ns o) .done

/-- `UpdateStatus` in a namespace. -/
def updateStatus (ns : String) (o : Object S T) : Api S T (Except ApiError (Object S T)) :=
  .call (.updateStatus ns o) .done

/-- `Delete` without grace period. -/
def delete (k : ObjectKey) : Api S T (Except ApiError Unit) := .call (.delete k) .done

/-- `List` in all namespaces, with a label selector. -/
def list (label value : String) : Api S T (Except ApiError (List (Object S T))) :=
  .call (.list label value) .done

variable {st : Strategy T} {order : MapOrder ObjectKey} {s : Store S T}

theorem run_get_none {k : ObjectKey} (h : s.get k = none) :
    Proc.run (serve st order) (get k) s = (.error .notFound, s) := by
  simp [get, Proc.run, serve, h]

theorem run_get_some {k : ObjectKey} {o : Object S T} (h : s.get k = some o) :
    Proc.run (serve st order) (get k) s = (.ok o, s) := by
  simp [get, Proc.run, serve, h]

theorem run_create {ns : String} {o : Object S T} (hrv : o.metadata.resourceVersion = "")
    (h : s.get ⟨ns, o.metadata.name⟩ = none) :
    Proc.run (serve st order) (create ns o) s =
      (.ok (s.stamped ⟨ns, o.metadata.name⟩ (created st s o)),
        s.put ⟨ns, o.metadata.name⟩ (created st s o)) := by
  simp [create, Proc.run, serve, h, hrv]

theorem run_update {ns : String} {o stored : Object S T}
    (h : s.get ⟨ns, o.metadata.name⟩ = some stored) (hfresh : staleFor o stored = false) :
    Proc.run (serve st order) (update ns o) s =
      (.ok (s.stamped ⟨ns, o.metadata.name⟩ (updated o stored)),
        s.put ⟨ns, o.metadata.name⟩ (updated o stored)) := by
  simp [update, Proc.run, serve, h, hfresh]

theorem run_updateStatus {ns : String} {o stored : Object S T}
    (h : s.get ⟨ns, o.metadata.name⟩ = some stored) (hfresh : staleFor o stored = false) :
    Proc.run (serve st order) (updateStatus ns o) s =
      (.ok (s.stamped ⟨ns, o.metadata.name⟩ (statusUpdated st o stored)),
        s.put ⟨ns, o.metadata.name⟩ (statusUpdated st o stored)) := by
  simp [updateStatus, Proc.run, serve, h, hfresh]

/-- After a delete the key is free and everything else is as it was. -/
theorem get_run_delete (k k' : ObjectKey) :
    (Proc.run (serve st order) (delete k) s).2.get k' = if k' = k then none else s.get k' := by
  cases h : s.get k with
  | none =>
      simp only [delete, Proc.run, serve, h]
      split
      · subst k'
        exact h
      · rfl
  | some o => simp [delete, Proc.run, serve, h, Store.get_remove]

/-- What a list with a label selector answers. -/
def labelled (order : MapOrder ObjectKey) (s : Store S T) (label value : String) :
    List (Object S T) :=
  ((order.order s.objects).filterMap s.get).filter fun o =>
    o.metadata.labels.bind (fun l => l.get label) == some value

theorem run_list (label value : String) :
    Proc.run (serve st order) (list label value) s = (.ok (labelled order s label value), s) :=
  rfl

theorem mem_labelled {label value : String} {o : Object S T} :
    o ∈ labelled order s label value ↔ s.get o.metadata.key = some o ∧
      o.metadata.labels.bind (fun l => l.get label) = some value := by
  simp only [labelled, List.mem_filter, List.mem_filterMap, order.mem_order, beq_iff_eq]
  constructor
  · rintro ⟨⟨k, -, hk⟩, hl⟩
    exact ⟨by rwa [s.key_of_get hk], hl⟩
  · rintro ⟨hk, hl⟩
    exact ⟨⟨_, GoMap.mem_keys_of_get hk, hk⟩, hl⟩

end Client

/-! ## Retrying on conflicts -/

/-- An error as the callers see it: a refusal of the server or a message of their own. -/
inductive Error where
  | api (e : ApiError)
  | text (message : String)
  deriving DecidableEq, Repr

/-- The error results of the server as errors of the caller. -/
def asError {α : Type} : Except ApiError α → Except Error α
  | .ok a => .ok a
  | .error e => .error (.api e)

/-- `retry.RetryOnConflict`: up to `more` further attempts while the attempt ends in a conflict.  The
attempt works on data of its caller, which later attempts find as the earlier ones left it. -/
def retryOnConflict {S T D : Type} (attempt : D → Api S T (Except Error Unit × D)) :
    ℕ → D → Api S T (Except Error Unit × D)
  | 0, d => attempt d
  | more + 1, d => do
      let res ← attempt d
      match res.1 with
      | .error (.api .conflict) => retryOnConflict attempt more res.2
      | _ => pure res

/-- The further attempts of `retry.DefaultRetry`, whose `Steps` is 5. -/
def defaultRetry : ℕ := 4

/-- An attempt that does not end in a conflict is the only one. -/
theorem run_retryOnConflict {S T D σ : Type} (srv : σ → (x : Request S T) → x.Answer × σ)
    (attempt : D → Api S T (Except Error Unit × D)) (more : ℕ) (d : D) (s : σ)
    (h : (Proc.run srv (attempt d) s).1.1 ≠ .error (.api .conflict)) :
    Proc.run srv (retryOnConflict attempt more d) s = Proc.run srv (attempt d) s := by
  cases more with
  | zero => rfl
  | succ more =>
      rw [retryOnConflict, Proc.run_do]
      split
      · exact absurd ‹_› h
      · rfl

end OteStack.Lib.KubeApi
