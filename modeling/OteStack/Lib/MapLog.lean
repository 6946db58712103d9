/-
# OteStack.Lib.MapLog — a map and the changes that made it.

A log is a list of writes and deletions, and `replay` is the map it leads to.  A reader of the map sees the
last change of each key: `Latest log k v` says that this was a write of `v` (`get_replay_eq_some`).

A store that keeps its entries under other names replays a renamed log.  As long as no two keys share a name,
it answers like the map of the keys (`get_replay_rename`), and has no other names (`of_get_replay_rename`).
-/
import OteStack.Lib.GoMap

namespace OteStack.Lib

variable {κ κ' ν : Type}

/-! ## Changes -/

/-- A change of a map. -/
inductive MapOp (κ ν : Type) where
  | put (k : κ) (v : ν)
  | delete (k : κ)
  deriving DecidableEq, Repr

namespace MapOp

/-- The key that is changed. -/
def key : MapOp κ ν → κ
  | .put k _ => k
  | .delete k => k

/-- The same change under another name. -/
def rename (f : κ → κ') : MapOp κ ν → MapOp κ' ν
  | .put k v => .put (f k) v
  | .delete k => .delete (f k)

/-- The map after the change. -/
def apply [DecidableEq κ] (m : GoMap κ ν) : MapOp κ ν → GoMap κ ν
  | .put k v => m.set k v
  | .delete k => m.delete k

@[simp] theorem key_rename (f : κ → κ') (op : MapOp κ ν) : (op.rename f).key = f op.key := by
  cases op <;> rfl

variable [DecidableEq κ]

theorem get_apply_of_ne (m : GoMap κ ν) {op : MapOp κ ν} {k : κ} (h : k ≠ op.key) :
    (apply m op).get k = m.get k := by
  cases op with
  | put k' v => exact GoMap.get_set_of_ne m h v
  | delete k' => exact GoMap.get_delete_of_ne m h

theorem get_apply_key (m : GoMap κ ν) (op : MapOp κ ν) (v : ν) :
    (apply m op).get op.key = some v ↔ op = .put op.key v := by
  cases op with
  | put k w => simp [apply, key]
  | delete k => simp [apply, key]

end MapOp

/-! ## Logs -/

/-- The map that a log leads to. -/
def replay [DecidableEq κ] (log : List (MapOp κ ν)) : GoMap κ ν := log.foldl MapOp.apply ∅

/-- The last change of the key was a write of the value. -/
def Latest (log : List (MapOp κ ν)) (k : κ) (v : ν) : Prop :=
  ∃ before after, log = before ++ .put k v :: after ∧ ∀ op ∈ after, op.key ≠ k

theorem not_latest_nil (k : κ) (v : ν) : ¬ Latest ([] : List (MapOp κ ν)) k v := by
  rintro ⟨before, after, h, -⟩
  simp at h

/-- One more change is the latest of its key, and leaves the others as they are. -/
theorem latest_concat_iff {log : List (MapOp κ ν)} {op : MapOp κ ν} {k : κ} {v : ν} :
    Latest (log ++ [op]) k v ↔ op = .put k v ∨ op.key ≠ k ∧ Latest log k v := by
  constructor
  · rintro ⟨before, after, hlog, hafter⟩
    rcases List.eq_nil_or_concat after with rfl | ⟨after, last, rfl⟩
    · exact Or.inl (List.singleton_inj.mp (List.append_inj' hlog rfl).2)
    · rw [List.concat_eq_append, ← List.cons_append, ← List.append_assoc] at hlog
      obtain ⟨hfront, hop⟩ := List.append_inj' hlog rfl
      have hlast : op = last := List.singleton_inj.mp hop
      refine Or.inr ⟨hlast ▸ hafter last (by simp), before, after, hfront, fun op' hop' => ?_⟩
      exact hafter op' (by simp [hop'])
  · rintro (rfl | ⟨hne, before, after, rfl, hafter⟩)
    · exact ⟨log, [], rfl, by simp⟩
    · refine ⟨before, after ++ [op], by simp, fun op' hop' => ?_⟩
      rcases List.mem_append.mp hop' with hop' | hop'
      · exact hafter op' hop'
      · rw [List.mem_singleton.mp hop']
        exact hne

variable [DecidableEq κ]

theorem replay_concat (log : List (MapOp κ ν)) (op : MapOp κ ν) :
    replay (log ++ [op]) = MapOp.apply (replay log) op := by
  rw [replay, List.foldl_append]
  rfl

/-- The map holds what was written last. -/
theorem get_replay_eq_some {log : List (MapOp κ ν)} {k : κ} {v : ν} :
    (replay log).get k = some v ↔ Latest log k v := by
  induction log using List.reverseRecOn with
  | nil => exact iff_of_false (by simp [replay]) (not_latest_nil k v)
  | append_singleton log op ih =>
      rw [replay_concat, latest_concat_iff]
      by_cases hk : op.key = k
      · subst hk
        rw [MapOp.get_apply_key]
        exact (or_iff_left fun h => h.1 rfl).symm
      · rw [MapOp.get_apply_of_ne _ (Ne.symm hk), ih]
        refine ⟨fun h => Or.inr ⟨hk, h⟩, ?_⟩
        rintro (rfl | h)
        · exact absurd rfl hk
        · exact h.2

/-! ## Other names -/

section Rename

variable [DecidableEq κ'] {f : κ → κ'}

/-- A key whose name no other key of the log has is replayed alike under its name. -/
theorem get_replay_rename {log : List (MapOp κ ν)} {k : κ} (hinj : ∀ op ∈ log, f op.key = f k → op.key = k) :
    (replay (log.map (MapOp.rename f))).get (f k) = (replay log).get k := by
  induction log using List.reverseRecOn with
  | nil => simp [replay]
  | append_singleton log op ih =>
      rw [List.map_append, List.map_singleton, replay_concat, replay_concat]
      have hlog := ih fun op' hop' => hinj op' (by simp [hop'])
      by_cases hk : op.key = k
      · subst hk
        cases op with
        | put k v => simp [MapOp.apply, MapOp.rename, MapOp.key]
        | delete k => simp [MapOp.apply, MapOp.rename, MapOp.key]
      · have hname : f k ≠ (op.rename f).key := by
          rw [MapOp.key_rename]
          exact fun h => hk (hinj op (by simp) h.symm)
        rw [MapOp.get_apply_of_ne _ hname, MapOp.get_apply_of_ne _ (Ne.symm hk), hlog]

omit [DecidableEq κ] in
/-- Every name is that of a key which was written. -/
theorem of_get_replay_rename {log : List (MapOp κ ν)} {name : κ'} {v : ν}
    (h : (replay (log.map (MapOp.rename f))).get name = some v) : ∃ op ∈ log, f op.key = name := by
  obtain ⟨before, after, hlog, -⟩ := get_replay_eq_some.mp h
  have hmem : MapOp.put name v ∈ log.map (MapOp.rename f) := by simp [hlog]
  obtain ⟨op, hop, hname⟩ := List.mem_map.mp hmem
  have hkey := MapOp.key_rename f op
  rw [hname, MapOp.key] at hkey
  exact ⟨op, hop, hkey.symm⟩

end Rename

end OteStack.Lib
