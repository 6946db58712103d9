/-
# OteStack.Lib.Course — what a program does, whatever it is answered.

`Proc.run` executes a program against a server.  A `Course` leaves the server out: it is any list of calls
with answers that the program can go through, and the result it then has.  What holds of all courses holds
against every server, and among any other clients of it.

A property of courses that many programs have is that certain calls are made only right after a call whose
answer permits them (`Preceded`).  Courses of this kind can be put together (`Preceded.append`).
-/
import OteStack.Lib.Proc

namespace OteStack.Lib.Proc

variable {q : Type} {r : q → Type} {α β : Type}

/-- A course of a program: its calls with their answers, and its result. -/
inductive Course : Proc q r α → List ((x : q) × r x) → α → Prop where
  | done (a : α) : Course (.done a) [] a
  | call {x : q} {k : r x → Proc q r α} (y : r x) {l : List ((x : q) × r x)} {a : α}
      (h : Course (k y) l a) : Course (.call x k) (⟨x, y⟩ :: l) a

theorem Course.of_pure {a b : α} {l : List ((x : q) × r x)} (h : Course (pure a : Proc q r α) l b) :
    l = [] ∧ b = a := by
  cases h with
  | done => exact ⟨rfl, rfl⟩

/-- A program that makes one call and returns the answer. -/
theorem Course.of_call {x : q} {l : List ((x : q) × r x)} {y : r x}
    (h : Course (.call x .done : Proc q r (r x)) l y) : l = [⟨x, y⟩] := by
  cases h with
  | call y h =>
      cases h with
      | done => rfl

/-- The course of two programs in sequence is a course of the first and one of the second. -/
theorem Course.of_bind {p : Proc q r α} {f : α → Proc q r β} {l : List ((x : q) × r x)} {b : β}
    (h : Course (p >>= f) l b) : ∃ l₁ l₂ a, l = l₁ ++ l₂ ∧ Course p l₁ a ∧ Course (f a) l₂ b := by
  change Course (p.bind f) l b at h
  induction p generalizing l with
  | done a => exact ⟨[], l, a, rfl, .done a, h⟩
  | call x k ih =>
      cases h with
      | call y h =>
          obtain ⟨l₁, l₂, a, rfl, hp, hf⟩ := ih y h
          exact ⟨⟨x, y⟩ :: l₁, l₂, a, rfl, .call y hp, hf⟩

/-- Every call is made right after one with which it is permitted, if it needs to. -/
def Preceded (permits : (x : q) × r x → (x : q) × r x → Prop) (needs : (x : q) × r x → Prop)
    (l : List ((x : q) × r x)) : Prop :=
  ∀ before e after, l = before ++ e :: after → needs e → ∃ earlier d, before = earlier ++ [d] ∧ permits d e

variable {permits : (x : q) × r x → (x : q) × r x → Prop} {needs : (x : q) × r x → Prop}
  {l l' : List ((x : q) × r x)}

theorem Preceded.nil : Preceded permits needs ([] : List ((x : q) × r x)) := by
  intro before e after h
  simp at h

/-- A call that needs no other one. -/
theorem Preceded.single {d : (x : q) × r x} (h : ¬ needs d) : Preceded permits needs [d] := by
  intro before e after heq hneeds
  rw [List.singleton_eq_append_iff] at heq
  rcases heq with ⟨-, heq⟩ | ⟨-, heq⟩
  · obtain ⟨rfl, -⟩ := List.cons.inj heq
    exact absurd hneeds h
  · cases heq

/-- A call that permits the next one. -/
theorem Preceded.pair {d e : (x : q) × r x} (hd : ¬ needs d) (h : permits d e) :
    Preceded permits needs [d, e] := by
  intro before e' after heq hneeds
  rcases before with _ | ⟨b, before⟩
  · obtain ⟨rfl, -⟩ := List.cons.inj heq
    exact absurd hneeds hd
  · obtain ⟨rfl, hrest⟩ := List.cons.inj heq
    rcases before with _ | ⟨b', before⟩
    · obtain ⟨rfl, -⟩ := List.cons.inj hrest
      exact ⟨[], d, rfl, h⟩
    · have hnil := (List.cons.inj hrest).2
      simp at hnil

theorem Preceded.append (h : Preceded permits needs l) (h' : Preceded permits needs l') :
    Preceded permits needs (l ++ l') := by
  intro before e after heq hneeds
  rcases List.append_eq_append_iff.mp heq with ⟨rest, rfl, hrest⟩ | ⟨rest, rfl, hrest⟩
  · -- the call is in the second part
    obtain ⟨earlier, d, rfl, hd⟩ := h' rest e after hrest hneeds
    exact ⟨l ++ earlier, d, by rw [List.append_assoc], hd⟩
  · rcases rest with _ | ⟨e', rest⟩
    · obtain ⟨earlier, d, hnil, -⟩ := h' [] e after hrest.symm hneeds
      simp at hnil
    · obtain ⟨rfl, -⟩ := List.cons.inj hrest
      exact h before e rest rfl hneeds

end OteStack.Lib.Proc
