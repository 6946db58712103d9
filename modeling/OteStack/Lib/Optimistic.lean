/-
# OteStack.Lib.Optimistic — what a resource version protects.

A client reads an object, decides on what it has read, and sends a write that carries the version it
read.  The server refuses the write unless the stored object still has that version.  So a write that
goes through was decided on the object it replaces, whatever other clients did in between.

`Advances better` is the relation between an earlier and a later state of a store that makes this work:
objects stay, and one that has changed has a version that was given out since, and is `better`.  It is a
preorder when `better` is transitive, so it can serve as the relation of an interleaving, and
`ConditionalWrite.of_read` is the rule for a write that carries the version that was read.
-/
import OteStack.Lib.Interleaving
import OteStack.Lib.KubeApi

namespace OteStack.Lib.KubeApi

variable {S T : Type}

/-- Different versions are written differently. -/
theorem toString_nat_inj {m n : ℕ} (h : toString m = toString n) : m = n := by
  have hdigits : Nat.toDigits 10 m = Nat.toDigits 10 n := by
    rw [← Nat.toList_repr, ← Nat.toList_repr]
    exact congrArg String.toList h
  rw [← Nat.ofDigitChars_ten_toDigits (n := m), hdigits, Nat.ofDigitChars_ten_toDigits]

/-! ## Versions -/

/-- Every version in the store was given out by the server. -/
def Stamped (s : Store S T) : Prop :=
  ∀ k x, s.get k = some x → ∃ n ≤ s.revision, x.metadata.resourceVersion = toString n

theorem stamped_empty : Stamped (∅ : Store S T) := by
  intro k x hx
  rw [Store.get_empty] at hx
  exact absurd hx (by simp)

theorem Stamped.version_ne_empty {s : Store S T} (h : Stamped s) {k : ObjectKey} {x : Object S T}
    (hx : s.get k = some x) : x.metadata.resourceVersion ≠ "" := by
  obtain ⟨n, -, hn⟩ := h k x hx
  rw [hn]
  exact Nat.repr_ne_empty

theorem Stamped.put {s : Store S T} (h : Stamped s) (k : ObjectKey) (o : Object S T) :
    Stamped (s.put k o) := by
  intro k' x hx
  rw [Store.get_put] at hx
  split at hx
  · obtain rfl := Option.some.inj hx
    exact ⟨s.revision + 1, le_refl _, rfl⟩
  · obtain ⟨n, hn, hrv⟩ := h k' x hx
    exact ⟨n, Nat.le_succ_of_le hn, hrv⟩

/-- A write that names a version and is not stale names the stored one. -/
theorem resourceVersion_eq_of_fresh {o x : Object S T} (h : staleFor o x = false)
    (hrv : o.metadata.resourceVersion ≠ "") :
    x.metadata.resourceVersion = o.metadata.resourceVersion := by
  simp only [staleFor, Bool.or_eq_false_iff, Bool.and_eq_false_iff, bne_eq_false_iff_eq] at h
  rcases h.1 with hempty | heq
  · exact absurd hempty hrv
  · exact heq.symm

/-! ## Moving forward -/

/-- From `s` to `s'` no object is lost, and an object that has changed has a version that was given out
since and is better than before. -/
structure Advances (better : Object S T → Object S T → Prop) (s s' : Store S T) : Prop where
  revision : s.revision ≤ s'.revision
  stamped : Stamped s → Stamped s'
  object : ∀ k x, s.get k = some x → ∃ x', s'.get k = some x' ∧
    (x' = x ∨ (∃ n, s.revision < n ∧ x'.metadata.resourceVersion = toString n) ∧ better x x')

namespace Advances

variable {better : Object S T → Object S T → Prop} {s s' s'' : Store S T} {k : ObjectKey}
  {x x' : Object S T}

theorem refl (s : Store S T) : Advances better s s :=
  ⟨le_refl _, id, fun _ x hx => ⟨x, hx, Or.inl rfl⟩⟩

theorem trans (hbetter : ∀ x y z, better x y → better y z → better x z)
    (h : Advances better s s') (h' : Advances better s' s'') : Advances better s s'' := by
  refine ⟨h.revision.trans h'.revision, h'.stamped ∘ h.stamped, ?_⟩
  intro k x hx
  obtain ⟨y, hy, hxy⟩ := h.object k x hx
  obtain ⟨z, hz, hyz⟩ := h'.object k y hy
  refine ⟨z, hz, ?_⟩
  rcases hyz with rfl | ⟨⟨n, hn, hrv⟩, hbz⟩
  · exact hxy
  · refine Or.inr ⟨⟨n, lt_of_le_of_lt h.revision hn, hrv⟩, ?_⟩
    rcases hxy with rfl | ⟨-, hby⟩
    · exact hbz
    · exact hbetter x y z hby hbz

/-- An object that still has the version it had is the same object. -/
theorem eq_of_version (h : Advances better s s') (hs : Stamped s) (hx : s.get k = some x)
    (hx' : s'.get k = some x')
    (hrv : x'.metadata.resourceVersion = x.metadata.resourceVersion) : x' = x := by
  obtain ⟨y, hy, hxy⟩ := h.object k x hx
  obtain rfl : y = x' := Option.some.inj (hy.symm.trans hx')
  rcases hxy with heq | ⟨⟨n, hn, hnew⟩, -⟩
  · exact heq
  · obtain ⟨m, hm, hold⟩ := hs k x hx
    have hmn : n = m := toString_nat_inj (by rw [← hnew, hrv, hold])
    omega

/-- A write of something better, or of something new. -/
theorem put {o : Object S T} (h : ∀ x, s.get k = some x → better x (s.stamped k o)) :
    Advances better s (s.put k o) := by
  refine ⟨Nat.le_succ _, fun hs => hs.put k o, ?_⟩
  intro k' x hx
  by_cases hk : k' = k
  · subst hk
    exact ⟨_, s.get_put_self k' o, Or.inr ⟨⟨s.revision + 1, Nat.lt_succ_self _, rfl⟩, h x hx⟩⟩
  · exact ⟨x, by rw [s.get_put_of_ne hk]; exact hx, Or.inl rfl⟩

/-- What is there stays there. -/
theorem isSome (h : Advances better s s') (hx : s.get k = some x) : ∃ x', s'.get k = some x' := by
  obtain ⟨x', hx', -⟩ := h.object k x hx
  exact ⟨x', hx'⟩

end Advances

/-! ## Calls among other calls -/

section Calls

variable {q : Type} {r : q → Type} (srv : Store S T → (x : q) → r x × Store S T)
  (R : Store S T → Store S T → Prop) (ok : Store S T → q → Prop)

/-- A call that writes `write x` over the object `x` under `k`, provided `x` has the version `rv`, and
is otherwise answered by an error that satisfies `refusal`. -/
def ConditionalWrite (p : Proc q r (Except ApiError (Object S T))) (k : ObjectKey) (rv : String)
    (write : Object S T → Object S T) (refusal : ApiError → Prop) : Prop :=
  ∀ ⦃α : Type⦄ ⦃Q : α → Store S T → Prop⦄ ⦃f : Except ApiError (Object S T) → Proc q r α⦄
    ⦃s : Store S T⦄,
    (∀ t, R s t → t.get k = none → Proc.Safe srv R ok Q (f (.error .notFound)) t) →
    (∀ t e, R s t → refusal e → Proc.Safe srv R ok Q (f (.error e)) t) →
    (∀ t x, R s t → t.get k = some x → x.metadata.resourceVersion = rv →
      R t (t.put k (write x)) ∧
        Proc.Safe srv R ok Q (f (.ok (t.stamped k (write x)))) (t.put k (write x))) →
    Proc.Safe srv R ok Q (p >>= f) s

variable {srv R ok} {better : Object S T → Object S T → Prop}
  {p : Proc q r (Except ApiError (Object S T))} {k : ObjectKey} {x : Object S T}
  {write : Object S T → Object S T} {refusal : ApiError → Prop} {α : Type}
  {Q : α → Store S T → Prop} {f : Except ApiError (Object S T) → Proc q r α} {s : Store S T}

/-- A write with the version of an object that was read replaces that very object, or is refused. -/
theorem ConditionalWrite.of_read (hw : ConditionalWrite srv R ok p k x.metadata.resourceVersion write refusal)
    (hadv : ∀ {a b}, R a b → Advances better a b) (hs : Stamped s) (hx : s.get k = some x)
    (hrefused : ∀ t e, R s t → refusal e → Proc.Safe srv R ok Q (f (.error e)) t)
    (hwritten : ∀ t, R s t → t.get k = some x →
      R t (t.put k (write x)) ∧
        Proc.Safe srv R ok Q (f (.ok (t.stamped k (write x)))) (t.put k (write x))) :
    Proc.Safe srv R ok Q (p >>= f) s := by
  refine hw ?_ hrefused ?_
  · intro t ht hnone
    obtain ⟨y, hy⟩ := (hadv ht).isSome hx
    rw [hy] at hnone
    exact absurd hnone (by simp)
  · intro t y ht hy hrv
    obtain rfl := (hadv ht).eq_of_version hs hx hy hrv
    exact hwritten t ht hy

/-- The check of the server: a write that is stale is a conflict, and one that goes through is based on the
stored version. -/
theorem safe_checkedWrite (hrefl : ∀ t, R t t) {o y : Object S T} (hrv : o.metadata.resourceVersion ≠ "")
    (hconflict : Proc.Safe srv R ok Q (f (.error .conflict)) s)
    (hwritten : x.metadata.resourceVersion = o.metadata.resourceVersion →
      R s (s.put k y) ∧ Proc.Safe srv R ok Q (f (.ok (s.stamped k y))) (s.put k y))
    {res : Except ApiError (Object S T) × Store S T}
    (hres : res = if staleFor o x then (.error .conflict, s) else (.ok (s.stamped k y), s.put k y)) :
    R s res.2 ∧ Proc.Safe srv R ok Q (f res.1) res.2 := by
  subst hres
  by_cases hstale : staleFor o x = true
  · rw [if_pos hstale]
    exact ⟨hrefl s, hconflict⟩
  · rw [if_neg hstale]
    exact hwritten (resourceVersion_eq_of_fresh (by simpa using hstale) hrv)

end Calls

/-! ## The typed client among others -/

namespace Client

variable {st : Strategy T} {order : MapOrder ObjectKey} {R : Store S T → Store S T → Prop}
  {ok : Store S T → Request S T → Prop} {α : Type} {Q : α → Store S T → Prop} {s : Store S T}
  {f : Except ApiError (Object S T) → Api S T α}

theorem safe_get (hrefl : ∀ t, R t t) {k : ObjectKey}
    (hnone : ∀ t, R s t → t.get k = none → Proc.Safe (serve st order) R ok Q (f (.error .notFound)) t)
    (hsome : ∀ t x, R s t → t.get k = some x → Proc.Safe (serve st order) R ok Q (f (.ok x)) t) :
    Proc.Safe (serve st order) R ok Q (Client.get k >>= f) s := by
  intro t ht _
  rcases h : t.get k with _ | x
  · simp only [serve, h]
    exact ⟨hrefl t, hnone t ht h⟩
  · simp only [serve, h]
    exact ⟨hrefl t, hsome t x ht h⟩

theorem safe_create (hrefl : ∀ t, R t t) {ns : String} {o : Object S T}
    (hrv : o.metadata.resourceVersion = "")
    (hpresent : ∀ t x, R s t → ok t (.create ns o) → t.get ⟨ns, o.metadata.name⟩ = some x →
      Proc.Safe (serve st order) R ok Q (f (.error .alreadyExists)) t)
    (habsent : ∀ t, R s t → t.get ⟨ns, o.metadata.name⟩ = none →
      R t (t.put ⟨ns, o.metadata.name⟩ (created st t o)) ∧
        Proc.Safe (serve st order) R ok Q (f (.ok (t.stamped ⟨ns, o.metadata.name⟩ (created st t o))))
          (t.put ⟨ns, o.metadata.name⟩ (created st t o))) :
    Proc.Safe (serve st order) R ok Q (Client.create ns o >>= f) s := by
  intro t ht hok
  rcases h : t.get ⟨ns, o.metadata.name⟩ with _ | x
  · simp only [serve, h, hrv, ne_eq, not_true_eq_false, if_false]
    exact habsent t ht h
  · simp only [serve, h, hrv, ne_eq, not_true_eq_false, if_false]
    exact ⟨hrefl t, hpresent t x ht hok h⟩

/-- A delete that finds nothing. -/
theorem safe_delete (hrefl : ∀ t, R t t) {k : ObjectKey} {f : Except ApiError Unit → Api S T α}
    (hok : ∀ t, ok t (.delete k) → t.get k = none)
    (hnone : ∀ t, R s t → Proc.Safe (serve st order) R ok Q (f (.error .notFound)) t) :
    Proc.Safe (serve st order) R ok Q (Client.delete k >>= f) s := by
  intro t ht hokt
  simp only [serve, hok t hokt]
  exact ⟨hrefl t, hnone t ht⟩

theorem conditionalWrite_update (hrefl : ∀ t, R t t) {ns : String} {o : Object S T}
    (hrv : o.metadata.resourceVersion ≠ "") :
    ConditionalWrite (serve st order) R ok (Client.update ns o) ⟨ns, o.metadata.name⟩
      o.metadata.resourceVersion (updated o) (· = .conflict) := by
  intro α Q f s hmissing hrefused hwritten t ht _
  rcases h : t.get ⟨ns, o.metadata.name⟩ with _ | x
  · simp only [serve, h]
    exact ⟨hrefl t, hmissing t ht h⟩
  · simp only [serve, h]
    exact safe_checkedWrite hrefl hrv (hrefused t .conflict ht rfl) (hwritten t x ht h) rfl

theorem conditionalWrite_updateStatus (hrefl : ∀ t, R t t) {ns : String} {o : Object S T}
    (hrv : o.metadata.resourceVersion ≠ "") :
    ConditionalWrite (serve st order) R ok (Client.updateStatus ns o) ⟨ns, o.metadata.name⟩
      o.metadata.resourceVersion (statusUpdated st o) (· = .conflict) := by
  intro α Q f s hmissing hrefused hwritten t ht _
  rcases h : t.get ⟨ns, o.metadata.name⟩ with _ | x
  · simp only [serve, h]
    exact ⟨hrefl t, hmissing t ht h⟩
  · simp only [serve, h]
    exact safe_checkedWrite hrefl hrv (hrefused t .conflict ht rfl) (hwritten t x ht h) rfl

end Client

/-- Retrying on conflicts: what every attempt keeps until it ends in something else than a conflict. -/
theorem safe_retryOnConflict {D σ : Type} {srv : σ → (x : Request S T) → x.Answer × σ}
    {R : σ → σ → Prop} {ok : σ → Request S T → Prop} (htrans : ∀ a b c, R a b → R b c → R a c)
    (hrefl : ∀ a, R a a) {attempt : D → Api S T (Except Error Unit × D)} {I : D → σ → Prop}
    {Q : Except Error Unit × D → σ → Prop}
    (hattempt : ∀ d s, I d s → Proc.Safe srv R ok
      (fun res t => (res.1 = .error (.api .conflict) → I res.2 t) ∧ Q res t) (attempt d) s)
    (more : ℕ) {d : D} {s : σ} (hI : I d s) :
    Proc.Safe srv R ok Q (retryOnConflict attempt more d) s := by
  induction more generalizing d s with
  | zero => exact (hattempt d s hI).imp fun _ _ h => h.2
  | succ more ih =>
      refine Proc.Safe.bind hrefl (((hattempt d s hI).stable htrans).imp ?_)
      intro res t h
      split
      · rename_i hconflict
        exact ih ((h t (hrefl t)).1 hconflict)
      · exact Proc.Safe.pure fun t' ht' => (h t' ht').2

end OteStack.Lib.KubeApi
