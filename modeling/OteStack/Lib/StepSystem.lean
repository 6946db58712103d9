/-
# OteStack.Lib.StepSystem — runs of a system whose every choice is an action.

A concurrent program is given here as a partial function `step : σ → α → Option σ`: the action names
which party moves and how every open choice (which queued message, which map order, whether a dial
succeeds) is resolved, and `none` means the action is not possible in that state.  A run is a list of
actions, so "for every interleaving" is a quantifier over lists, and a concrete schedule can be
evaluated by the kernel.

`runSteps_invariant` is the one induction over runs: what holds at the start and is kept by every
permitted step holds in every state reached.  `StepsMeet` restricts the steps of a run by a condition
on the state before each step.
-/
import Mathlib.Data.List.Induction
import Mathlib.Data.Option.Basic

namespace OteStack.Lib

variable {σ : Type*} {α : Type*}

/-! ## Runs -/

/-- The state a list of actions leads to, if every one of them is possible in turn. -/
def runSteps (step : σ → α → Option σ) : σ → List α → Option σ
  | s, [] => some s
  | s, a :: as => (step s a).bind fun s' => runSteps step s' as

@[simp] theorem runSteps_nil (step : σ → α → Option σ) (s : σ) : runSteps step s [] = some s := rfl

theorem runSteps_cons {step : σ → α → Option σ} {s s' : σ} {a : α} {as : List α} :
    runSteps step s (a :: as) = some s' ↔ ∃ t, step s a = some t ∧ runSteps step t as = some s' :=
  Option.bind_eq_some_iff

/-- Runs compose. -/
theorem runSteps_append {step : σ → α → Option σ} :
    ∀ {as bs : List α} {s t u : σ}, runSteps step s as = some t → runSteps step t bs = some u →
      runSteps step s (as ++ bs) = some u
  | [], _, s, t, u, h, h' => by
      obtain rfl : s = t := Option.some.inj h
      exact h'
  | a :: as, bs, s, t, u, h, h' => by
      obtain ⟨r, hr, hrest⟩ := runSteps_cons.mp h
      exact runSteps_cons.mpr ⟨r, hr, runSteps_append hrest h'⟩

/-- A run of two parts passes through a state between them. -/
theorem exists_of_runSteps_append {step : σ → α → Option σ} :
    ∀ {as bs : List α} {s u : σ}, runSteps step s (as ++ bs) = some u →
      ∃ t, runSteps step s as = some t ∧ runSteps step t bs = some u
  | [], _, s, _, h => ⟨s, rfl, h⟩
  | a :: as, bs, s, u, h => by
      obtain ⟨r, hr, hrest⟩ := runSteps_cons.mp h
      obtain ⟨t, ht, hbs⟩ := exists_of_runSteps_append hrest
      exact ⟨t, runSteps_cons.mpr ⟨r, hr, ht⟩, hbs⟩

/-! ## Runs whose steps meet a condition -/

/-- Every step of the run `as` from `s` is taken in a state that meets `ok`. -/
def StepsMeet (step : σ → α → Option σ) (ok : σ → α → Prop) : σ → List α → Prop
  | _, [] => True
  | s, a :: as => ok s a ∧ match step s a with
    | none => True
    | some s' => StepsMeet step ok s' as

instance decidableStepsMeet (step : σ → α → Option σ) (ok : σ → α → Prop)
    [∀ s a, Decidable (ok s a)] : ∀ s as, Decidable (StepsMeet step ok s as)
  | _, [] => .isTrue trivial
  | s, a :: as =>
      have : Decidable (match step s a with
          | none => True
          | some s' => StepsMeet step ok s' as) :=
        match step s a with
        | none => .isTrue trivial
        | some s' => decidableStepsMeet step ok s' as
      inferInstanceAs (Decidable (_ ∧ _))

theorem stepsMeet_cons {step : σ → α → Option σ} {ok : σ → α → Prop} {s t : σ} {a : α} {as : List α}
    (h : StepsMeet step ok s (a :: as)) (hstep : step s a = some t) :
    ok s a ∧ StepsMeet step ok t as := by
  refine ⟨h.1, ?_⟩
  have h2 := h.2
  rw [hstep] at h2
  exact h2

/-- A condition that the actions meet in every state. -/
theorem stepsMeet_of_forall {step : σ → α → Option σ} {ok : σ → α → Prop} :
    ∀ {as : List α}, (∀ a ∈ as, ∀ s, ok s a) → ∀ s, StepsMeet step ok s as
  | [], _, _ => trivial
  | a :: as, h, s => by
      refine ⟨h a (by simp) s, ?_⟩
      split
      · trivial
      · exact stepsMeet_of_forall (fun b hb => h b (by simp [hb])) _

/-- A condition on the actions alone is met together with one on the steps. -/
theorem StepsMeet.and_forall {step : σ → α → Option σ} {ok : σ → α → Prop} {P : α → Prop} :
    ∀ {as : List α} {s : σ}, StepsMeet step ok s as → (∀ a ∈ as, P a) →
      StepsMeet step (fun s a => ok s a ∧ P a) s as
  | [], _, _, _ => trivial
  | a :: as, s, h, hP => by
      refine ⟨⟨h.1, hP a (by simp)⟩, ?_⟩
      split
      · trivial
      · rename_i t ht
        exact (stepsMeet_cons h ht).2.and_forall fun b hb => hP b (by simp [hb])

/-- A run that ends where something holds, by evaluation. -/
theorem exists_run {step : σ → α → Option σ} {s : σ} {as : List α} {P : σ → Prop} [DecidablePred P]
    (h : (runSteps step s as).map (fun t => decide (P t)) = some true) :
    ∃ t, runSteps step s as = some t ∧ P t := by
  obtain ⟨t, ht, hP⟩ := Option.map_eq_some_iff.mp h
  exact ⟨t, ht, of_decide_eq_true hP⟩

/-- The steps of a composed run meet the condition in both parts. -/
theorem stepsMeet_append {step : σ → α → Option σ} {ok : σ → α → Prop} :
    ∀ {as bs : List α} {s t : σ}, StepsMeet step ok s (as ++ bs) → runSteps step s as = some t →
      StepsMeet step ok s as ∧ StepsMeet step ok t bs
  | [], _, s, t, h, hrun => by
      obtain rfl : s = t := Option.some.inj hrun
      exact ⟨trivial, h⟩
  | a :: as, bs, s, t, h, hrun => by
      obtain ⟨r, hr, hrest⟩ := runSteps_cons.mp hrun
      obtain ⟨hoka, hok⟩ := stepsMeet_cons h hr
      obtain ⟨has, hbs⟩ := stepsMeet_append hok hrest
      refine ⟨⟨hoka, ?_⟩, hbs⟩
      rw [hr]
      exact has

/-- What holds at the start and is kept by every step that meets the condition holds at the end of
every run whose steps all meet it. -/
theorem runSteps_invariant_of_meet {step : σ → α → Option σ} {ok : σ → α → Prop} {I : σ → Prop}
    (hstep : ∀ {s a s'}, I s → ok s a → step s a = some s' → I s') :
    ∀ {as : List α} {s s' : σ}, I s → StepsMeet step ok s as → runSteps step s as = some s' → I s'
  | [], s, s', hI, _, h => by
      obtain rfl : s = s' := Option.some.inj h
      exact hI
  | a :: as, s, s', hI, hok, h => by
      obtain ⟨t, ht, hrest⟩ := runSteps_cons.mp h
      obtain ⟨hoka, hok'⟩ := stepsMeet_cons hok ht
      exact runSteps_invariant_of_meet hstep (hstep hI hoka ht) hok' hrest

/-- A run whose steps meet one condition meets another, if an invariant of such runs turns the one into
the other. -/
theorem stepsMeet_of_invariant {step : σ → α → Option σ} {ok good : σ → α → Prop} {I : σ → Prop}
    (hstep : ∀ {s a s'}, I s → ok s a → step s a = some s' → I s')
    (himp : ∀ {s a}, I s → ok s a → good s a) :
    ∀ {as : List α} {s : σ}, I s → StepsMeet step ok s as → StepsMeet step good s as
  | [], _, _, _ => trivial
  | a :: as, s, hI, h => by
      refine ⟨himp hI h.1, ?_⟩
      split
      · trivial
      · rename_i t ht
        obtain ⟨hok, hmeet⟩ := stepsMeet_cons h ht
        exact stepsMeet_of_invariant hstep himp (hstep hI hok ht) hmeet

/-- The invariant rule for unrestricted runs. -/
theorem runSteps_invariant {step : σ → α → Option σ} {I : σ → Prop}
    (hstep : ∀ {s a s'}, I s → step s a = some s' → I s') :
    ∀ {as : List α} {s s' : σ}, I s → runSteps step s as = some s' → I s'
  | [], s, s', hI, h => by
      obtain rfl : s = s' := Option.some.inj h
      exact hI
  | a :: as, s, s', hI, h => by
      obtain ⟨t, ht, hrest⟩ := runSteps_cons.mp h
      exact runSteps_invariant hstep (hstep hI ht) hrest

/-- The invariant rule for a property of the state and the actions that led to it. -/
theorem runSteps_history {step : σ → α → Option σ} {I : List α → σ → Prop}
    (hstep : ∀ {as s a s'}, I as s → step s a = some s' → I (as ++ [a]) s') :
    ∀ {as past : List α} {s s' : σ}, I past s → runSteps step s as = some s' → I (past ++ as) s'
  | [], past, s, s', hI, h => by
      obtain rfl : s = s' := Option.some.inj h
      rw [List.append_nil]
      exact hI
  | a :: as, past, s, s', hI, h => by
      obtain ⟨t, ht, hrest⟩ := runSteps_cons.mp h
      have hall := runSteps_history hstep (hstep hI ht) hrest
      rw [List.append_assoc] at hall
      exact hall

/-- A property of the state and of the actions so far, which a step keeps exactly when it meets a
condition, holds throughout a run exactly when all its steps meet the condition.  The actions may be
restricted to those with a property `P`. -/
theorem forall_prefix_iff_stepsMeet_history {step : σ → α → Option σ} {ok : σ → α → Prop}
    {I F : List α → σ → Prop} (P : α → Prop)
    (hkeep : ∀ {past s a s'}, P a → I past s → F past s → step s a = some s' → I (past ++ [a]) s')
    (hiff : ∀ {past s a s'}, P a → I past s → F past s → step s a = some s' →
      (F (past ++ [a]) s' ↔ ok s a)) {as : List α} (hP : ∀ a ∈ as, P a) (past : List α) {s s' : σ}
    (hI : I past s) (hF : F past s) (hrun : runSteps step s as = some s') :
    (∀ bs t, bs <+: as → runSteps step s bs = some t → F (past ++ bs) t) ↔ StepsMeet step ok s as := by
  induction as generalizing past s with
  | nil =>
      refine ⟨fun _ => trivial, ?_⟩
      intro _ bs t hbs ht
      obtain rfl := List.prefix_nil.mp hbs
      obtain rfl : s = t := Option.some.inj ht
      rw [List.append_nil]
      exact hF
  | cons a as ih =>
      obtain ⟨r, hr, hrest⟩ := runSteps_cons.mp hrun
      have hsplit : ∀ bs, past ++ a :: bs = past ++ [a] ++ bs := fun bs => by simp
      have hPa : P a := hP a (by simp)
      have hPas : ∀ b ∈ as, P b := fun b hb => hP b (by simp [hb])
      constructor
      · -- the first step is itself a prefix of the run
        intro h
        have hFr : F (past ++ [a]) r := h [a] r (by simp) (runSteps_cons.mpr ⟨r, hr, rfl⟩)
        refine ⟨(hiff hPa hI hF hr).mp hFr, ?_⟩
        rw [hr]
        refine (ih hPas _ (hkeep hPa hI hF hr) hFr hrest).mp fun bs t hbs ht => ?_
        rw [← hsplit]
        exact h (a :: bs) t ((List.prefix_cons_inj a).mpr hbs) (runSteps_cons.mpr ⟨r, hr, ht⟩)
      · intro h bs t hbs ht
        obtain ⟨hok, hmeet⟩ := stepsMeet_cons h hr
        have hFr : F (past ++ [a]) r := (hiff hPa hI hF hr).mpr hok
        rcases bs with _ | ⟨b, bs⟩
        · obtain rfl : s = t := Option.some.inj ht
          rw [List.append_nil]
          exact hF
        · obtain ⟨rfl, hbs'⟩ := List.cons_prefix_cons.mp hbs
          obtain ⟨r', hr', ht'⟩ := runSteps_cons.mp ht
          obtain rfl : r = r' := Option.some.inj (hr.symm.trans hr')
          rw [hsplit]
          exact (ih hPas _ (hkeep hPa hI hF hr) hFr hrest).mpr hmeet bs t hbs' ht'

/-- A property that a step keeps exactly when it meets a condition holds throughout a run exactly when all
its steps meet the condition. -/
theorem forall_prefix_iff_stepsMeet {step : σ → α → Option σ} {ok : σ → α → Prop} {I F : σ → Prop}
    (hkeep : ∀ {s a s'}, I s → F s → step s a = some s' → I s')
    (hiff : ∀ {s a s'}, I s → F s → step s a = some s' → (F s' ↔ ok s a)) {as : List α} {s s' : σ}
    (hI : I s) (hF : F s) (hrun : runSteps step s as = some s') :
    (∀ bs t, bs <+: as → runSteps step s bs = some t → F t) ↔ StepsMeet step ok s as :=
  forall_prefix_iff_stepsMeet_history (I := fun _ => I) (F := fun _ => F) (fun _ => True)
    (fun _ => hkeep) (fun _ => hiff) (fun _ _ => trivial) [] hI hF hrun

/-- A property of states that a condition on the steps keeps, and that a step against the condition loses,
holds throughout a run exactly when its steps meet the condition.  The property may be one of all that can
follow, which is why an invariant carries it. -/
theorem forall_prefix_iff_of_lost {step : σ → α → Option σ} {ok : σ → α → Prop} {I F : σ → Prop}
    (hkeep : ∀ {s a s'}, I s → ok s a → step s a = some s' → I s')
    (hlost : ∀ {s a s'}, I s → ¬ ok s a → step s a = some s' → ¬ F s')
    (hnone : ∀ {s a}, I s → step s a = none → ok s a) (hF : ∀ {s}, I s → F s) {as : List α} {s : σ}
    (hI : I s) :
    (∀ bs t, bs <+: as → runSteps step s bs = some t → F t) ↔ StepsMeet step ok s as := by
  constructor
  · intro h
    -- up to the first step against the condition the invariant holds
    induction as generalizing s with
    | nil => trivial
    | cons a as ih =>
        cases hstep : step s a with
        | none => exact ⟨hnone hI hstep, by rw [hstep]; trivial⟩
        | some t =>
            have hok : ok s a := by
              by_contra hbad
              exact hlost hI hbad hstep (h [a] t (by simp) (runSteps_cons.mpr ⟨t, hstep, rfl⟩))
            refine ⟨hok, ?_⟩
            rw [hstep]
            refine ih (hkeep hI hok hstep) fun bs u hbs hu => ?_
            exact h (a :: bs) u ((List.prefix_cons_inj a).mpr hbs) (runSteps_cons.mpr ⟨t, hstep, hu⟩)
  · rintro h bs t ⟨rest, rfl⟩ ht
    exact hF (runSteps_invariant_of_meet hkeep hI (stepsMeet_append h ht).1 ht)

/-- What holds after every prefix of a run and a continuation of it is what holds, after every prefix, of all
its continuations. -/
theorem forall_prefix_append_iff {step : σ → α → Option σ} {P : List α → Prop} {Q : σ → Prop} {as : List α}
    {s : σ} :
    (∀ bs cs t, bs <+: as → P cs → runSteps step s (bs ++ cs) = some t → Q t) ↔
      ∀ bs t, bs <+: as → runSteps step s bs = some t →
        ∀ cs u, P cs → runSteps step t cs = some u → Q u := by
  constructor
  · intro h bs t hbs ht cs u hcs hu
    exact h bs cs u hbs hcs (runSteps_append ht hu)
  · intro h bs cs u hbs hcs hrun
    obtain ⟨t, ht, hu⟩ := exists_of_runSteps_append hrun
    exact h bs t hbs ht cs u hcs hu

/-! ## Runs that lead somewhere -/

/-- If there is always a permitted step that makes a measure smaller, a run of such steps gets there. -/
theorem exists_run_until {step : σ → α → Option σ} {ok : α → Prop} {I D : σ → Prop} {f : σ → Nat}
    (hprogress : ∀ {s}, I s → ¬ D s → ∃ a s', ok a ∧ step s a = some s' ∧ I s' ∧ f s' < f s) {s : σ}
    (hI : I s) : ∃ as t, (∀ a ∈ as, ok a) ∧ runSteps step s as = some t ∧ I t ∧ D t := by
  induction hn : f s using Nat.strongRecOn generalizing s with
  | _ n ih =>
      by_cases hD : D s
      · exact ⟨[], s, by simp, rfl, hI, hD⟩
      · obtain ⟨a, s', hok, hstep, hI', hlt⟩ := hprogress hI hD
        obtain ⟨as, t, hoks, hrun, ht⟩ := ih (f s') (hn ▸ hlt) hI' rfl
        refine ⟨a :: as, t, ?_, runSteps_cons.mpr ⟨s', hstep, hrun⟩, ht⟩
        intro b hb
        rcases List.mem_cons.mp hb with rfl | hb
        · exact hok
        · exact hoks b hb

end OteStack.Lib
