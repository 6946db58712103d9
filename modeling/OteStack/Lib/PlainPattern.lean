/-
# OteStack.Lib.PlainPattern — unanchored search for a pattern of literals and one wildcard.

The patterns here are the regular expressions without operators: a list of symbols, one of which
(`w`) stands for any symbol and every other one for itself.  `found w p s` searches for `p` anywhere
in `s`.

A plain pattern is itself a text, so `found` relates texts to texts, and as such it is a preorder:
every text is found in itself, and what is found in something found in `t` is found in `t`.  The
second half is the fact that lets a chain of searches, each for what the last one found, be replaced
by its first link.
-/
import Mathlib.Data.List.Forall2
import Mathlib.Data.List.Infix

namespace OteStack.Lib.PlainPattern

variable {α : Type*} [DecidableEq α] (w : α)

/-- One pattern symbol against one text symbol. -/
def symbolMatches (p a : α) : Bool := p == w || p == a

/-- The pattern matches a beginning of the text. -/
def matchesHere : List α → List α → Bool
  | [], _ => true
  | _ :: _, [] => false
  | p :: ps, a :: as => symbolMatches w p a && matchesHere ps as

/-- The pattern matches somewhere in the text. -/
def found (p s : List α) : Bool := s.tails.any (matchesHere w p)

theorem symbolMatches_self (a : α) : symbolMatches w a a = true := by
  simp [symbolMatches]

theorem symbolMatches_trans {a b c : α} (hab : symbolMatches w a b = true)
    (hbc : symbolMatches w b c = true) : symbolMatches w a c = true := by
  simp only [symbolMatches, Bool.or_eq_true, beq_iff_eq] at *
  rcases hab with rfl | rfl
  · exact Or.inl rfl
  · exact hbc

theorem matchesHere_iff : ∀ {p s : List α}, matchesHere w p s = true ↔
    ∃ t, t <+: s ∧ List.Forall₂ (fun a b => symbolMatches w a b = true) p t
  | [], s => by
      simp only [matchesHere, true_iff]
      exact ⟨[], List.nil_prefix, .nil⟩
  | a :: p, [] => by
      simp [matchesHere]
  | a :: p, b :: s => by
      simp only [matchesHere, Bool.and_eq_true, matchesHere_iff]
      constructor
      · rintro ⟨hab, t, ht, hpt⟩
        exact ⟨b :: t, List.cons_prefix_cons.mpr ⟨rfl, ht⟩, .cons hab hpt⟩
      · rintro ⟨t, ht, hpt⟩
        cases hpt with
        | cons hab hpt =>
            obtain ⟨rfl, ht'⟩ := List.cons_prefix_cons.mp ht
            exact ⟨hab, _, ht', hpt⟩

/-- A search succeeds exactly when the pattern matches some stretch of the text symbol by symbol. -/
theorem found_iff {p s : List α} : found w p s = true ↔
    ∃ t, t <:+: s ∧ List.Forall₂ (fun a b => symbolMatches w a b = true) p t := by
  simp only [found, List.any_eq_true, List.mem_tails, matchesHere_iff]
  constructor
  · rintro ⟨u, hu, t, ht, hpt⟩
    exact ⟨t, ht.isInfix.trans hu.isInfix, hpt⟩
  · rintro ⟨t, ⟨x, y, rfl⟩, hpt⟩
    exact ⟨t ++ y, ⟨x, by simp⟩, t, List.prefix_append t y, hpt⟩

theorem found_self (s : List α) : found w s s = true :=
  (found_iff w).mpr ⟨s, List.infix_refl s, List.forall₂_same.mpr fun a _ => symbolMatches_self w a⟩

theorem forall₂_matches_trans : ∀ {p s t : List α},
    List.Forall₂ (fun a b => symbolMatches w a b = true) p s →
    List.Forall₂ (fun a b => symbolMatches w a b = true) s t →
    List.Forall₂ (fun a b => symbolMatches w a b = true) p t
  | _, _, _, .nil, .nil => .nil
  | _, _, _, .cons hab hps, .cons hbc hst =>
      .cons (symbolMatches_trans w hab hbc) (forall₂_matches_trans hps hst)

omit [DecidableEq α] in
/-- A stretch of the pattern matches the corresponding stretch of the text. -/
theorem forall₂_infix {R : α → α → Prop} {t s u : List α} (ht : t <:+: s)
    (hsu : List.Forall₂ R s u) : ∃ v, v <:+: u ∧ List.Forall₂ R t v := by
  obtain ⟨x, y, rfl⟩ := ht
  have hlen := hsu.length_eq
  refine ⟨(u.drop x.length).take t.length, ?_, ?_⟩
  · exact (List.take_prefix _ _).isInfix.trans (List.drop_suffix _ _).isInfix
  · have h := List.forall₂_take t.length (List.forall₂_drop x.length hsu)
    simpa using h

theorem found_trans {p s t : List α} (hps : found w p s = true) (hst : found w s t = true) :
    found w p t = true := by
  obtain ⟨u, hu, hpu⟩ := (found_iff w).mp hps
  obtain ⟨v, hv, hsv⟩ := (found_iff w).mp hst
  obtain ⟨v', hv', huv⟩ := forall₂_infix hu hsv
  exact (found_iff w).mpr ⟨v', hv'.trans hv, forall₂_matches_trans w hpu huv⟩

end OteStack.Lib.PlainPattern
