/-
# OteStack.EdgeHub.FieldSelector — field selectors as Kubernetes defines them, and as the edge hub reads them.

A field selector is a list of terms `field=value`, `field==value` or `field!=value`, separated by commas, and
means that all of them hold; in a value the characters `\`, `,` and `=` are escaped.
`IsFilterFromQueryParams` of `pkg/server/handler/handler.go` splits the text at every `=` and compares the
second piece with the field that the first piece names.

So it reads at most the first term, takes whatever follows it up to the next `=` for its value, sees an empty
value after `==`, and does not see `!=` at all.  `selector_understood_iff` says for which selectors its answer
is nevertheless right for all objects.
-/
import OteStack.EdgeHub.WatchFilter

namespace OteStack.EdgeHub

open OteStack.Lib.GoStrings (join split split_append split_eq_cons)

/-! ## Selectors -/

/-- The operator of a term. -/
inductive SelectorOp where
  | equals
  | doubleEquals
  | notEquals
  deriving DecidableEq, Repr

namespace SelectorOp

def text : SelectorOp → String
  | equals => "="
  | doubleEquals => "=="
  | notEquals => "!="

/-- Whether a term with this operator and value holds for a field. -/
def test : SelectorOp → String → String → Bool
  | equals, value, actual => value == actual
  | doubleEquals, value, actual => value == actual
  | notEquals, value, actual => value != actual

end SelectorOp

/-- A term of a field selector. -/
structure SelectorTerm where
  field : String
  op : SelectorOp
  value : String
  deriving DecidableEq, Repr

def escapeChar (c : Char) : List Char := if c = '\\' ∨ c = ',' ∨ c = '=' then ['\\', c] else [c]

/-- The text of a value. -/
def escapeValue (value : String) : String := String.ofList (value.toList.flatMap escapeChar)

def SelectorTerm.text (t : SelectorTerm) : String := t.field ++ t.op.text ++ escapeValue t.value

/-- The text of a selector. -/
def selectorText (terms : List SelectorTerm) : String := join ',' (terms.map SelectorTerm.text)

/-- What a term on the field is about: the name of the object, the name of its node, or neither. -/
def subject (nodeName name field : String) : Option String :=
  if field = objectNameField then some name
  else if field = specNodeNameField then some nodeName
  else none

/-- The term holds for the object; terms on other fields are ignored. -/
def SelectorTerm.holds (nodeName name : String) (t : SelectorTerm) : Bool :=
  match subject nodeName name t.field with
  | some actual => t.op.test t.value actual
  | none => true

/-- The term is on one of the two fields. -/
def SelectorTerm.Relevant (t : SelectorTerm) : Prop := t.field = objectNameField ∨ t.field = specNodeNameField

instance (t : SelectorTerm) : Decidable t.Relevant := inferInstanceAs (Decidable (_ ∨ _))

theorem subject_of_relevant {t : SelectorTerm} (h : t.Relevant) (x : String) :
    subject x x t.field = some x := by
  unfold subject
  rcases h with h | h
  · rw [if_pos h]
  · rw [h, if_neg (by decide), if_pos rfl]

theorem subject_of_not_relevant {t : SelectorTerm} (h : ¬ t.Relevant) (nodeName name : String) :
    subject nodeName name t.field = none := by
  rw [SelectorTerm.Relevant, not_or] at h
  rw [subject, if_neg h.1, if_neg h.2]

theorem subject_ne_none {t : SelectorTerm} (h : t.Relevant) (nodeName name : String) :
    subject nodeName name t.field ≠ none := by
  unfold subject
  rcases h with h | h
  · simp [h]
  · simp [h, show specNodeNameField ≠ objectNameField by decide]

/-! ## What the edge hub reads -/

/-- The text after the first term. -/
def restText (rest : List SelectorTerm) : String := if rest.isEmpty then "" else "," ++ selectorText rest

theorem selectorText_cons (t : SelectorTerm) (rest : List SelectorTerm) :
    selectorText (t :: rest) = t.text ++ restText rest := by
  refine String.toList_inj.mp ?_
  cases rest with
  | nil => simp [selectorText, join, restText]
  | cons t' rest => simp [selectorText, join, restText, List.intercalate_cons_cons]

/-- The piece that is compared: what follows the first `=`, up to the next one. -/
def compared (t : SelectorTerm) (rest : List SelectorTerm) : String :=
  match t.op with
  | .equals => String.ofList ((escapeValue t.value ++ restText rest).toList.takeWhile (· ≠ '='))
  | _ => ""

variable {nodeName name : String}

theorem isFilterFromQueryParams_of_split {fieldSelector field value : String} {more : List String}
    (h : split '=' fieldSelector = field :: value :: more) :
    isFilterFromQueryParams fieldSelector nodeName name =
      match subject nodeName name field with
      | some actual => value == actual
      | none => true := by
  have hne : fieldSelector ≠ "" := by
    rintro rfl
    rw [show split '=' "" = [""] by decide] at h
    cases h
  rw [isFilterFromQueryParams, if_neg hne, h, subject]
  by_cases hname : field = objectNameField
  · simp only [if_pos hname]
  · by_cases hnode : field = specNodeNameField
    · simp only [if_neg hname, if_pos hnode]
    · simp only [if_neg hname, if_neg hnode]

/-- The first piece of a term with `!=` ends in `!` and names neither field. -/
theorem subject_bang (field : String) : subject nodeName name (field ++ "!") = none := by
  have hlast : ∀ s : String, s.toList.getLast? ≠ some '!' → field ++ "!" ≠ s := by
    rintro s hs rfl
    exact hs (by simp)
  rw [subject, if_neg (hlast _ (by decide)), if_neg (hlast _ (by decide))]

/-- The answer depends on the first term and on what is compared. -/
theorem isFilterFromQueryParams_cons {t : SelectorTerm} (hfield : '=' ∉ t.field.toList)
    (rest : List SelectorTerm) :
    isFilterFromQueryParams (selectorText (t :: rest)) nodeName name =
      if t.op = .notEquals then true
      else match subject nodeName name t.field with
        | some actual => compared t rest == actual
        | none => true := by
  rw [selectorText_cons, SelectorTerm.text]
  cases hop : t.op with
  | equals =>
      have htext : t.field ++ SelectorOp.equals.text ++ escapeValue t.value ++ restText rest =
          t.field ++ String.singleton '=' ++ (escapeValue t.value ++ restText rest) := String.append_assoc
      obtain ⟨more, hmore⟩ := split_eq_cons '=' (escapeValue t.value ++ restText rest)
      have hsplit := split_append (b := escapeValue t.value ++ restText rest) hfield
      rw [hmore] at hsplit
      rw [htext, isFilterFromQueryParams_of_split hsplit, compared, hop]
      rfl
  | doubleEquals =>
      have htext : t.field ++ SelectorOp.doubleEquals.text ++ escapeValue t.value ++ restText rest =
          t.field ++ String.singleton '=' ++ ("" ++ String.singleton '=' ++
            (escapeValue t.value ++ restText rest)) := by
        refine String.toList_inj.mp ?_
        simp [SelectorOp.text]
      have hsplit := split_append (b := "" ++ String.singleton '=' ++ (escapeValue t.value ++ restText rest))
        hfield
      rw [split_append (show '=' ∉ "".toList by decide)] at hsplit
      rw [htext, isFilterFromQueryParams_of_split hsplit, compared, hop]
      rfl
  | notEquals =>
      have htext : t.field ++ SelectorOp.notEquals.text ++ escapeValue t.value ++ restText rest =
          t.field ++ "!" ++ String.singleton '=' ++ (escapeValue t.value ++ restText rest) := by
        refine String.toList_inj.mp ?_
        simp [SelectorOp.text]
      obtain ⟨more, hmore⟩ := split_eq_cons '=' (escapeValue t.value ++ restText rest)
      have hbang : '=' ∉ (t.field ++ "!").toList := by simpa using hfield
      have hsplit := split_append (b := escapeValue t.value ++ restText rest) hbang
      rw [hmore] at hsplit
      rw [htext, isFilterFromQueryParams_of_split hsplit, subject_bang]
      rfl

/-! ## When the piece compared is the value -/

/-- The value has no character that is escaped. -/
def Plain (value : String) : Prop := ∀ c ∈ value.toList, c ≠ '\\' ∧ c ≠ ',' ∧ c ≠ '='

instance (value : String) : Decidable (Plain value) := List.decidableBAll _ value.toList

theorem length_le_flatMap_escapeChar (l : List Char) :
    l.length ≤ (l.flatMap escapeChar).length ∧
      ((l.flatMap escapeChar).length = l.length → ∀ c ∈ l, c ≠ '\\' ∧ c ≠ ',' ∧ c ≠ '=') := by
  induction l with
  | nil => simp
  | cons c l ih =>
      rw [List.flatMap_cons, List.length_append, List.length_cons, escapeChar]
      split
      · simp only [List.length_cons, List.length_nil]
        exact ⟨by omega, fun h => by omega⟩
      · rename_i hc
        rw [not_or, not_or] at hc
        simp only [List.length_singleton]
        refine ⟨by omega, fun h => ?_⟩
        intro d hd
        rcases List.mem_cons.mp hd with rfl | hd
        · exact hc
        · exact ih.2 (by omega) d hd

theorem flatMap_escapeChar_eq_self {l : List Char} (h : ∀ c ∈ l, c ≠ '\\' ∧ c ≠ ',' ∧ c ≠ '=') :
    l.flatMap escapeChar = l := by
  induction l with
  | nil => rfl
  | cons c l ih =>
      obtain ⟨hslash, hcomma, heq⟩ := h c (by simp)
      rw [List.flatMap_cons, ih fun d hd => h d (List.mem_cons_of_mem c hd), escapeChar,
        if_neg (by simp [hslash, hcomma, heq])]
      rfl

/-- The escaped text of a value without `=` has none either. -/
theorem eq_notMem_flatMap_escapeChar {l : List Char} (h : '=' ∉ l) : '=' ∉ l.flatMap escapeChar := by
  intro hmem
  obtain ⟨c, hc, hin⟩ := List.mem_flatMap.mp hmem
  unfold escapeChar at hin
  split at hin
  · have heq : c = '=' := by simpa [eq_comm] using hin
    exact h (heq ▸ hc)
  · have heq : c = '=' := by simpa [eq_comm] using hin
    exact h (heq ▸ hc)

/-- After `field=` the piece compared is the value exactly if the term is alone and its value is plain. -/
theorem compared_eq_value_iff {t : SelectorTerm} (hop : t.op = .equals) (rest : List SelectorTerm) :
    compared t rest = t.value ↔ rest = [] ∧ Plain t.value := by
  have hcompared : (compared t rest).toList =
      (t.value.toList.flatMap escapeChar ++ (restText rest).toList).takeWhile (· ≠ '=') := by
    rw [compared, hop]
    simp [escapeValue]
  rw [← String.toList_inj, hcompared]
  constructor
  · intro h
    -- what is compared has no `=`, so the value has none and is read to its end
    have heq : '=' ∉ t.value.toList := by
      rw [← h]
      intro hmem
      simpa using List.mem_takeWhile_imp hmem
    rw [List.takeWhile_append_of_pos] at h
    · have hlen := congrArg List.length h
      rw [List.length_append] at hlen
      obtain ⟨hle, hplain⟩ := length_le_flatMap_escapeChar t.value.toList
      refine ⟨?_, hplain (by omega)⟩
      cases rest with
      | nil => rfl
      | cons t' rest =>
          -- the comma would be compared as well
          have hpos : 0 < ((restText (t' :: rest)).toList.takeWhile (· ≠ '=')).length := by
            simp [restText]
          omega
    · intro c hc
      have hne : c ≠ '=' := by
        rintro rfl
        exact eq_notMem_flatMap_escapeChar heq hc
      simpa using hne
  · rintro ⟨rfl, hplain⟩
    rw [flatMap_escapeChar_eq_self hplain]
    have hall : t.value.toList.takeWhile (· ≠ '=') = t.value.toList := by
      rw [List.takeWhile_eq_self_iff]
      intro c hc
      simpa using (hplain c hc).2.2
    simpa [restText] using hall

/-! ## Selectors that are understood -/

/-- No term is on the two fields; or the only term is `field=value`, with a plain value; or the first term is
`field==` with an empty value, and every later one on the two fields is on the same field and holds for the
empty value as well. -/
def Understood (terms : List SelectorTerm) : Prop :=
  (∀ t ∈ terms, ¬ t.Relevant) ∨
    (∃ t, terms = [t] ∧ t.op = .equals ∧ Plain t.value) ∨
    ∃ t rest, terms = t :: rest ∧ t.Relevant ∧ t.op = .doubleEquals ∧ t.value = "" ∧
      ∀ t' ∈ rest, t'.Relevant → t'.field = t.field ∧ t'.op.test t'.value "" = true

/-- A term on one of the two fields does not hold for all objects. -/
theorem SelectorOp.exists_test_eq_false (op : SelectorOp) (value : String) :
    ∃ actual, op.test value actual = false := by
  have hlonger : value ≠ value ++ "x" := by
    intro h
    have hlen := congrArg (fun s => s.toList.length) h
    simp at hlen
  cases op with
  | equals => exact ⟨value ++ "x", by simpa [SelectorOp.test] using hlonger⟩
  | doubleEquals => exact ⟨value ++ "x", by simpa [SelectorOp.test] using hlonger⟩
  | notEquals => exact ⟨value, by simp [SelectorOp.test]⟩

theorem SelectorTerm.holds_of_relevant {t : SelectorTerm} (h : t.Relevant) (x : String) :
    t.holds x x = t.op.test t.value x := by
  rw [SelectorTerm.holds, subject_of_relevant h]

theorem SelectorTerm.holds_of_not_relevant {t : SelectorTerm} (h : ¬ t.Relevant) (nodeName name : String) :
    t.holds nodeName name = true := by
  rw [SelectorTerm.holds, subject_of_not_relevant h]

/-- Two terms on different fields are about different things. -/
theorem exists_subjects {t t' : SelectorTerm} (h : t.Relevant) (h' : t'.Relevant) (hne : t'.field ≠ t.field)
    (x x' : String) : ∃ nodeName name, subject nodeName name t.field = some x ∧
      subject nodeName name t'.field = some x' := by
  have hfields : specNodeNameField ≠ objectNameField := by decide
  rcases h with h | h
  · rcases h' with h' | h'
    · exact absurd (h'.trans h.symm) hne
    · refine ⟨x', x, ?_, ?_⟩
      · rw [h, subject, if_pos rfl]
      · rw [h', subject, if_neg hfields, if_pos rfl]
  · rcases h' with h' | h'
    · refine ⟨x, x', ?_, ?_⟩
      · rw [h, subject, if_neg hfields, if_pos rfl]
      · rw [h', subject, if_pos rfl]
    · exact absurd (h'.trans h.symm) hne

section Agreement

variable {t : SelectorTerm} {rest : List SelectorTerm} (hfield : '=' ∉ t.field.toList)
  (hagree : ∀ nodeName name, isFilterFromQueryParams (selectorText (t :: rest)) nodeName name =
    (t :: rest).all (SelectorTerm.holds nodeName name))
include hfield hagree

/-- Where the text is accepted all terms hold. -/
theorem holds_of_accepted (hop : t.op ≠ .notEquals) {x : String} (hx : compared t rest = x)
    (hsubject : subject nodeName name t.field = some x) :
    ∀ t' ∈ t :: rest, t'.holds nodeName name = true := by
  have hall := hagree nodeName name
  rw [isFilterFromQueryParams_cons hfield, if_neg hop, hsubject] at hall
  exact List.all_eq_true.mp (hall.symm.trans (by simpa using hx))

/-- If the first term is not read, no term may be on the two fields. -/
theorem not_relevant_of_unread (hread : t.op = .notEquals ∨ ¬ t.Relevant) :
    ∀ t' ∈ t :: rest, ¬ t'.Relevant := by
  intro t' ht' hrelevant
  obtain ⟨actual, hactual⟩ := t'.op.exists_test_eq_false t'.value
  have hall := hagree actual actual
  have haccepted : isFilterFromQueryParams (selectorText (t :: rest)) actual actual = true := by
    rw [isFilterFromQueryParams_cons hfield]
    rcases hread with hop | hother
    · rw [if_pos hop]
    · rw [subject_of_not_relevant hother, ite_self]
  rw [haccepted] at hall
  have hholds := List.all_eq_true.mp hall.symm t' ht'
  rw [SelectorTerm.holds_of_relevant hrelevant, hactual] at hholds
  cases hholds

theorem understood_of_equals (hrelevant : t.Relevant) (hop : t.op = .equals) : Understood (t :: rest) := by
  have hholds := holds_of_accepted hfield hagree (by simp [hop]) rfl
    (subject_of_relevant hrelevant (compared t rest)) t (by simp)
  rw [SelectorTerm.holds_of_relevant hrelevant, hop, SelectorOp.test, beq_iff_eq] at hholds
  obtain ⟨rfl, hplain⟩ := (compared_eq_value_iff hop rest).mp hholds.symm
  exact Or.inr (Or.inl ⟨t, rfl, hop, hplain⟩)

theorem understood_of_doubleEquals (hrelevant : t.Relevant) (hop : t.op = .doubleEquals) :
    Understood (t :: rest) := by
  have hne : t.op ≠ .notEquals := by simp [hop]
  have hempty : compared t rest = "" := by rw [compared, hop]
  have hsame := holds_of_accepted hfield hagree hne hempty (subject_of_relevant hrelevant "")
  have hvalue := hsame t (by simp)
  rw [SelectorTerm.holds_of_relevant hrelevant, hop, SelectorOp.test, beq_iff_eq] at hvalue
  refine Or.inr (Or.inr ⟨t, rest, rfl, hrelevant, hop, hvalue, fun t' ht' hrelevant' => ⟨?_, ?_⟩⟩)
  · -- a term on the other field would fail for some object that is accepted
    by_contra hother
    obtain ⟨actual, hactual⟩ := t'.op.exists_test_eq_false t'.value
    obtain ⟨nodeName, name, hsubject, hsubject'⟩ := exists_subjects hrelevant hrelevant' hother "" actual
    have hholds := holds_of_accepted hfield hagree hne hempty hsubject t' (List.mem_cons_of_mem t ht')
    rw [SelectorTerm.holds, hsubject'] at hholds
    exact Bool.false_ne_true (hactual.symm.trans hholds)
  · have hholds := hsame t' (List.mem_cons_of_mem t ht')
    rwa [SelectorTerm.holds_of_relevant hrelevant'] at hholds

end Agreement

/-- The later terms hold for an object whose name of the same kind is empty. -/
theorem all_holds_of_empty {t : SelectorTerm} {rest : List SelectorTerm}
    (hrest : ∀ t' ∈ rest, t'.Relevant → t'.field = t.field ∧ t'.op.test t'.value "" = true)
    (hsubject : subject nodeName name t.field = some "") :
    rest.all (SelectorTerm.holds nodeName name) = true := by
  refine List.all_eq_true.mpr fun t' ht' => ?_
  by_cases hrelevant : t'.Relevant
  · obtain ⟨hsame, htest⟩ := hrest t' ht' hrelevant
    rw [SelectorTerm.holds, hsame, hsubject]
    exact htest
  · exact SelectorTerm.holds_of_not_relevant hrelevant _ _

/-- An understood selector is read as it is meant. -/
theorem isFilterFromQueryParams_of_understood {terms : List SelectorTerm}
    (hfields : ∀ t ∈ terms, '=' ∉ t.field.toList) (h : Understood terms) (nodeName name : String) :
    isFilterFromQueryParams (selectorText terms) nodeName name =
      terms.all (SelectorTerm.holds nodeName name) := by
  rcases h with h | ⟨t, rfl, hop, hplain⟩ | ⟨t, rest, rfl, hrelevant, hop, hvalue, hrest⟩
  · cases terms with
    | nil => rfl
    | cons t rest =>
        rw [isFilterFromQueryParams_cons (hfields t (by simp)), subject_of_not_relevant (h t (by simp)),
          ite_self]
        exact (List.all_eq_true.mpr fun t' ht' => SelectorTerm.holds_of_not_relevant (h t' ht') _ _).symm
  · rw [isFilterFromQueryParams_cons (hfields t (by simp)), (compared_eq_value_iff hop []).mpr ⟨rfl, hplain⟩,
      List.all_cons, List.all_nil, Bool.and_true, SelectorTerm.holds, hop]
    rfl
  · rw [isFilterFromQueryParams_cons (hfields t (by simp)), List.all_cons, SelectorTerm.holds, hop, hvalue,
      compared, hop, if_neg (by simp)]
    cases hsubject : subject nodeName name t.field with
    | none => exact absurd hsubject (subject_ne_none hrelevant nodeName name)
    | some actual =>
        by_cases hactual : "" = actual
        · rw [← hactual] at hsubject
          rw [all_holds_of_empty hrest hsubject, Bool.and_true]
          rfl
        · have hfalse : ("" == actual) = false := by simpa using hactual
          simp only [SelectorOp.test, hfalse, Bool.false_and]

/-- For every selector: `IsFilterFromQueryParams` accepts exactly the objects for which all terms hold,
whatever the names, exactly if the selector is understood. -/
theorem selector_understood_iff {terms : List SelectorTerm} (hfields : ∀ t ∈ terms, '=' ∉ t.field.toList) :
    (∀ nodeName name, isFilterFromQueryParams (selectorText terms) nodeName name =
      terms.all (SelectorTerm.holds nodeName name)) ↔ Understood terms := by
  constructor
  · intro hagree
    cases terms with
    | nil => exact Or.inl (by simp)
    | cons t rest =>
        have hfield := hfields t (by simp)
        by_cases hrelevant : t.Relevant
        · cases hop : t.op with
          | equals => exact understood_of_equals hfield hagree hrelevant hop
          | doubleEquals => exact understood_of_doubleEquals hfield hagree hrelevant hop
          | notEquals => exact Or.inl (not_relevant_of_unread hfield hagree (Or.inl hop))
        · exact Or.inl (not_relevant_of_unread hfield hagree (Or.inr hrelevant))
  · exact fun h nodeName name => isFilterFromQueryParams_of_understood hfields h nodeName name

/-- Two terms: the object has the name and is on the node, and is not accepted.  A term with `==` rejects the
object it names, and one with `!=` accepts it. -/
theorem selector_terms_misread :
    let two : List SelectorTerm := [⟨"metadata.name", .equals, "a"⟩, ⟨"spec.nodeName", .equals, "n"⟩]
    (selectorText two = "metadata.name=a,spec.nodeName=n" ∧ two.all (SelectorTerm.holds "n" "a") = true ∧
        isFilterFromQueryParams (selectorText two) "n" "a" = false) ∧
      isFilterFromQueryParams (selectorText [⟨"metadata.name", .doubleEquals, "a"⟩]) "n" "a" = false ∧
      isFilterFromQueryParams (selectorText [⟨"metadata.name", .notEquals, "a"⟩]) "n" "a" = true := by
  decide

/-- The selector of a kubelet for the pods of its node is understood. -/
theorem selector_understood_node :
    let term : SelectorTerm := ⟨"spec.nodeName", .equals, "edge-1"⟩
    ∀ nodeName name, isFilterFromQueryParams (selectorText [term]) nodeName name =
      [term].all (SelectorTerm.holds nodeName name) := by
  intro term
  have hplain : Plain term.value := by decide
  exact (selector_understood_iff (by decide)).mpr (Or.inr (Or.inl ⟨term, rfl, rfl, hplain⟩))

end OteStack.EdgeHub
