/-
# OteStack.Lib.CustomResource — the API server for a custom resource that can be patched.

A custom resource without a status subresource is written as a whole: an update takes spec, status and
labels from the request.  A merge patch is applied to the document of the stored object, and the outcome
is then an update like any other, so a version that the patch carries must be the stored one.

How objects are written as documents is a parameter (`Encoding`).  What a patch amounts to is asked for
where it is needed, as what the patched document decodes to.
-/
import OteStack.Lib.MergePatch
import OteStack.Lib.Optimistic

namespace OteStack.Lib.KubeApi

/-- The reason in an error status of the server. -/
def ApiError.reason : ApiError → String
  | .notFound => "NotFound"
  | .alreadyExists => "AlreadyExists"
  | .conflict => "Conflict"
  | .badRequest => "BadRequest"

/-- An error in a message. -/
def Error.message : Error → String
  | .api e => e.reason
  | .text message => message

namespace Custom

variable {S T α : Type}

/-! ## The server -/

/-- The documents of a kind, with scalars in `α`. -/
structure Encoding (S T α : Type) where
  encode : Object S T → Doc α
  decode : Doc α → Option (Object S T)

/-- The calls of a typed client. -/
inductive Request (S T α : Type) where
  | get (k : ObjectKey)
  | create (ns : String) (o : Object S T)
  | update (ns : String) (o : Object S T)
  | patch (k : ObjectKey) (doc : Doc α)

/-- The object that a request writes over, if it does. -/
def Request.target : Request S T α → Option ObjectKey
  | .update ns o => some ⟨ns, o.metadata.name⟩
  | .patch k _ => some k
  | _ => none

/-- A program against the server; every call is answered by an object. -/
abbrev Api (S T α : Type) := Proc (Request S T α) fun _ => Except ApiError (Object S T)

/-- The object a write makes of the stored one, before it is stamped. -/
def rewritten (o stored : Object S T) : Object S T :=
  { o with metadata := { o.metadata with
      uid := stored.metadata.uid, deletionTimestamp := stored.metadata.deletionTimestamp } }

/-- The object a create request makes, before it is stamped. -/
def created (s : Store S T) (o : Object S T) : Object S T :=
  { o with metadata := { o.metadata with uid := toString (s.revision + 1), deletionTimestamp := none } }

/-- A write over a stored object. -/
def write (s : Store S T) (k : ObjectKey) (o stored : Object S T) :
    Except ApiError (Object S T) × Store S T :=
  if staleFor o stored then (.error .conflict, s)
  else (.ok (s.stamped k (rewritten o stored)), s.put k (rewritten o stored))

/-- The server. -/
def serve (enc : Encoding S T α) (s : Store S T) :
    Request S T α → Except ApiError (Object S T) × Store S T
  | .get k =>
      match s.get k with
      | none => (.error .notFound, s)
      | some o => (.ok o, s)
  | .create ns o =>
      let k : ObjectKey := ⟨ns, o.metadata.name⟩
      if o.metadata.resourceVersion ≠ "" then (.error .badRequest, s)
      else match s.get k with
        | some _ => (.error .alreadyExists, s)
        | none => (.ok (s.stamped k (created s o)), s.put k (created s o))
  | .update ns o =>
      let k : ObjectKey := ⟨ns, o.metadata.name⟩
      match s.get k with
      | none => (.error .notFound, s)
      | some stored =>
          -- an update of a custom resource is never unconditional
          if o.metadata.resourceVersion = "" then (.error .badRequest, s) else write s k o stored
  | .patch k doc =>
      match s.get k with
      | none => (.error .notFound, s)
      | some stored =>
          match enc.decode ((enc.encode stored).mergePatch doc) with
          | none => (.error .badRequest, s)
          | some o => write s k o stored

variable {enc : Encoding S T α} {s : Store S T} {k : ObjectKey} {o stored : Object S T}

theorem write_of_fresh (h : staleFor o stored = false) :
    write s k o stored = (.ok (s.stamped k (rewritten o stored)), s.put k (rewritten o stored)) := by
  simp [write, h]

/-- A write that goes through leaves the object it answers, with a version of its own. -/
theorem get_of_serve_ok {x : Request S T α} {t : Store S T} (hk : x.target = some k)
    (h : serve enc s x = (.ok o, t)) :
    (∃ stored, s.get k = some stored) ∧ t.get k = some o ∧
      o.metadata.resourceVersion = toString (s.revision + 1) := by
  -- both kinds of writes end in `write`
  have hwrite : ∀ o' stored, s.get k = some stored → write s k o' stored = (.ok o, t) →
      (∃ stored, s.get k = some stored) ∧ t.get k = some o ∧
        o.metadata.resourceVersion = toString (s.revision + 1) := by
    intro o' stored hget hw
    unfold write at hw
    split at hw
    · simp at hw
    · obtain ⟨ho, rfl⟩ := Prod.mk.inj hw
      obtain rfl := Except.ok.inj ho
      exact ⟨⟨stored, hget⟩, s.get_put_self k _, rfl⟩
  rcases x with k' | ⟨ns, o'⟩ | ⟨ns, o'⟩ | ⟨k', doc⟩
  · simp [Request.target] at hk
  · simp [Request.target] at hk
  · obtain rfl : ⟨ns, o'.metadata.name⟩ = k := Option.some.inj hk
    rcases hget : s.get ⟨ns, o'.metadata.name⟩ with _ | stored
    · simp [serve, hget] at h
    · simp only [serve, hget] at h
      split at h
      · simp at h
      · rw [← hget]
        exact hwrite o' stored hget h
  · obtain rfl : k' = k := Option.some.inj hk
    rcases hget : s.get k' with _ | stored
    · simp [serve, hget] at h
    · simp only [serve, hget] at h
      split at h
      · simp at h
      · rw [← hget]
        exact hwrite _ stored hget h

/-! ## The typed client -/

namespace Client

/-- `Get`. -/
def get (k : ObjectKey) : Api S T α (Except ApiError (Object S T)) := .call (.get k) .done

/-- `Create` in a namespace. -/
def create (ns : String) (o : Object S T) : Api S T α (Except ApiError (Object S T)) :=
  .call (.create ns o) .done

/-- `Update` in a namespace. -/
def update (ns : String) (o : Object S T) : Api S T α (Except ApiError (Object S T)) :=
  .call (.update ns o) .done

/-- `Patch` with a merge patch. -/
def patch (k : ObjectKey) (doc : Doc α) : Api S T α (Except ApiError (Object S T)) :=
  .call (.patch k doc) .done

/-! ### Alone -/

theorem run_get_none (h : s.get k = none) :
    Proc.run (serve enc) (get k) s = (.error .notFound, s) := by
  simp [get, Proc.run, serve, h]

theorem run_get_some (h : s.get k = some o) : Proc.run (serve enc) (get k) s = (.ok o, s) := by
  simp [get, Proc.run, serve, h]

theorem run_create {ns : String} (hrv : o.metadata.resourceVersion = "")
    (h : s.get ⟨ns, o.metadata.name⟩ = none) :
    Proc.run (serve enc) (create ns o) s =
      (.ok (s.stamped ⟨ns, o.metadata.name⟩ (created s o)), s.put ⟨ns, o.metadata.name⟩ (created s o)) := by
  simp [create, Proc.run, serve, h, hrv]

theorem run_update {ns : String} (h : s.get ⟨ns, o.metadata.name⟩ = some stored)
    (hrv : o.metadata.resourceVersion ≠ "") (hfresh : staleFor o stored = false) :
    Proc.run (serve enc) (update ns o) s =
      (.ok (s.stamped ⟨ns, o.metadata.name⟩ (rewritten o stored)),
        s.put ⟨ns, o.metadata.name⟩ (rewritten o stored)) := by
  simp [update, Proc.run, serve, h, hrv, write_of_fresh hfresh]

theorem run_patch {doc : Doc α} (h : s.get k = some stored)
    (hdecode : enc.decode ((enc.encode stored).mergePatch doc) = some o)
    (hfresh : staleFor o stored = false) :
    Proc.run (serve enc) (patch k doc) s =
      (.ok (s.stamped k (rewritten o stored)), s.put k (rewritten o stored)) := by
  simp [patch, Proc.run, serve, h, hdecode, write_of_fresh hfresh]

/-! ### Among others -/

variable {R : Store S T → Store S T → Prop} {ok : Store S T → Request S T α → Prop} {β : Type}
  {Q : β → Store S T → Prop} {f : Except ApiError (Object S T) → Api S T α β}

theorem safe_get (hrefl : ∀ t, R t t)
    (hnone : ∀ t, R s t → t.get k = none → Proc.Safe (serve enc) R ok Q (f (.error .notFound)) t)
    (hsome : ∀ t x, R s t → t.get k = some x → Proc.Safe (serve enc) R ok Q (f (.ok x)) t) :
    Proc.Safe (serve enc) R ok Q (get k >>= f) s := by
  intro t ht _
  rcases h : t.get k with _ | x
  · simp only [serve, h]
    exact ⟨hrefl t, hnone t ht h⟩
  · simp only [serve, h]
    exact ⟨hrefl t, hsome t x ht h⟩

theorem conditionalWrite_update (hrefl : ∀ t, R t t) {ns : String} (hrv : o.metadata.resourceVersion ≠ "") :
    ConditionalWrite (serve enc) R ok (update ns o) ⟨ns, o.metadata.name⟩ o.metadata.resourceVersion
      (rewritten o) (· = .conflict) := by
  intro β Q f s hmissing hrefused hwritten t ht _
  rcases h : t.get ⟨ns, o.metadata.name⟩ with _ | x
  · simp only [serve, h]
    exact ⟨hrefl t, hmissing t ht h⟩
  · simp only [serve, h, hrv, if_false]
    exact safe_checkedWrite hrefl hrv (hrefused t .conflict ht rfl) (hwritten t x ht h) rfl

/-- A patch whose outcome carries one version, whatever object it is applied to, is conditional on that
version. -/
theorem conditionalWrite_patch (hrefl : ∀ t, R t t) {doc : Doc α} {outcome : Object S T → Object S T}
    {rv : String} (hdecode : ∀ x, enc.decode ((enc.encode x).mergePatch doc) = some (outcome x))
    (hversion : ∀ x, (outcome x).metadata.resourceVersion = rv) (hrv : rv ≠ "") :
    ConditionalWrite (serve enc) R ok (patch k doc) k rv (fun x => rewritten (outcome x) x)
      (· = .conflict) := by
  intro β Q f s hmissing hrefused hwritten t ht _
  rcases h : t.get k with _ | x
  · simp only [serve, h]
    exact ⟨hrefl t, hmissing t ht h⟩
  · simp only [serve, h, hdecode]
    have hoRv : (outcome x).metadata.resourceVersion ≠ "" := by
      rw [hversion]
      exact hrv
    refine safe_checkedWrite hrefl hoRv (hrefused t .conflict ht rfl) ?_ rfl
    rw [hversion]
    exact hwritten t x ht h

end Client

/-! ## Retrying on conflicts -/

section Retry

variable {q : Type} {r : q → Type} {σ : Type} {srv : σ → (x : q) → r x × σ}

/-- `retry.RetryOnConflict` with an attempt that starts afresh each time. -/
def retryOnConflict (attempt : Proc q r (Except Error Unit)) : ℕ → Proc q r (Except Error Unit)
  | 0 => attempt
  | more + 1 => do
      let res ← attempt
      match res with
      | .error (.api .conflict) => retryOnConflict attempt more
      | _ => pure res

/-- An attempt that does not end in a conflict is the only one. -/
theorem run_retryOnConflict {attempt : Proc q r (Except Error Unit)} (more : ℕ) {s : σ}
    (h : (Proc.run srv attempt s).1 ≠ .error (.api .conflict)) :
    Proc.run srv (retryOnConflict attempt more) s = Proc.run srv attempt s := by
  cases more with
  | zero => rfl
  | succ more =>
      rw [retryOnConflict, Proc.run_do]
      split
      · exact absurd ‹_› h
      · rfl

/-- Attempts that are safe wherever they start may be repeated. -/
theorem safe_retryOnConflict {R : σ → σ → Prop} {ok : σ → q → Prop} (hrefl : ∀ a, R a a)
    {attempt : Proc q r (Except Error Unit)} {I : σ → Prop} (hI : ∀ a b, R a b → I a → I b)
    (hattempt : ∀ s, I s → Proc.Safe srv R ok (fun _ _ => True) attempt s) (more : ℕ) {s : σ} (hs : I s) :
    Proc.Safe srv R ok (fun _ _ => True) (retryOnConflict attempt more) s := by
  induction more generalizing s with
  | zero => exact hattempt s hs
  | succ more ih =>
      refine Proc.Safe.bind hrefl (((hattempt s hs).frame hI hs).imp ?_)
      rintro res t ⟨-, ht⟩
      split
      · exact ih ht
      · exact Proc.Safe.pure fun _ _ => trivial

end Retry

end Custom

end OteStack.Lib.KubeApi
