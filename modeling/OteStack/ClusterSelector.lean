/-
# OteStack.ClusterSelector — which clusters a message is meant for.

`pkg/clusterselector`.  A selector is a comma-separated list of regular expressions; a cluster is
selected when one of them is found in its name.  `ClustersToSelector` joins cluster NAMES with the
same comma, and the result is read back by `NewSelector` as patterns: a name is used as a regular
expression from then on.

Go's `regexp` is a parameter (`Regexp`).  All that is relied on is what its documentation says of
patterns without operators: `MatchString` searches anywhere in the text, `.` stands for any
character and the other characters of a cluster name for themselves.
-/
import OteStack.Lib.GoStrings
import OteStack.Lib.PlainPattern

namespace OteStack

open OteStack.Lib.GoStrings (isSpace trimSpace split join split_join trimSpace_eq_self)
open OteStack.Lib.PlainPattern (found found_self found_trans)

/-! ## Cluster names -/

/-- The alphabet of Kubernetes object names, `[a-z0-9.-]`. -/
def nameChar (c : Char) : Bool := c.isLower || c.isDigit || c == '.' || c == '-'

/-- A name over the alphabet of Kubernetes object names. -/
def IsClusterName (s : String) : Prop := ∀ c ∈ s.toList, nameChar c = true

instance (s : String) : Decidable (IsClusterName s) :=
  List.decidableBAll (fun c => nameChar c = true) s.toList

theorem nameChar_ne_comma {c : Char} (h : nameChar c = true) : c ≠ ',' := by
  rintro rfl
  exact absurd h (by decide)

theorem isSpace_of_nameChar {c : Char} (h : nameChar c = true) : isSpace c = false := by
  have hlower : c.isLower = true → 97 ≤ c.toNat ∧ c.toNat ≤ 122 := by
    intro hc
    obtain ⟨hge, hle⟩ := Bool.and_eq_true_iff.mp hc
    exact ⟨of_decide_eq_true hge, of_decide_eq_true hle⟩
  have hdigit : c.isDigit = true → 48 ≤ c.toNat ∧ c.toNat ≤ 57 := by
    intro hc
    obtain ⟨hge, hle⟩ := Bool.and_eq_true_iff.mp hc
    exact ⟨of_decide_eq_true hge, of_decide_eq_true hle⟩
  have hrange : 45 ≤ c.toNat ∧ c.toNat ≤ 122 := by
    simp only [nameChar, Bool.or_eq_true, beq_iff_eq] at h
    rcases h with ((h | h) | rfl) | rfl
    · have := hlower h
      omega
    · have := hdigit h
      omega
    · decide
    · decide
  simp only [isSpace, Bool.or_eq_false_iff, Bool.and_eq_false_iff, decide_eq_false_iff_not,
    beq_eq_false_iff_ne]
  omega

/-! ## Selectors -/

/-- Go's `regexp.MatchString`, with the answer on an invalid pattern being `false` as its callers
here read it.  On patterns and texts over the alphabet of cluster names it is an unanchored search in
which only `.` is special. -/
structure Regexp where
  matchString : String → String → Bool
  matchString_name : ∀ {p s : String}, IsClusterName p → IsClusterName s →
    matchString p s = found '.' p.toList s.toList

/-- The patterns of a selector. -/
structure Selector where
  pattern : List String
  deriving DecidableEq, Repr

/-- Go's `NewSelector`. -/
def newSelector (s : String) : Selector := ⟨(split ',' s).map trimSpace⟩

/-- Go's `selector.Has`. -/
def Selector.has (re : Regexp) (s : Selector) (clusterName : String) : Bool :=
  s.pattern.any fun p => re.matchString p clusterName

/-- Go's `ClustersToSelector`. -/
def clustersToSelector (clusters : List String) : String := join ',' clusters

variable (re : Regexp)

/-- A cluster name, used as a regular expression, matches itself. -/
theorem matchString_self {s : String} (hs : IsClusterName s) : re.matchString s s = true := by
  rw [re.matchString_name hs hs]
  exact found_self '.' s.toList

/-- Cluster names compose as regular expressions: what matches a name that matches `t` matches `t`. -/
theorem matchString_trans {p s t : String} (hp : IsClusterName p) (hs : IsClusterName s)
    (ht : IsClusterName t) (hps : re.matchString p s = true) (hst : re.matchString s t = true) :
    re.matchString p t = true := by
  rw [re.matchString_name hp hs] at hps
  rw [re.matchString_name hs ht] at hst
  rw [re.matchString_name hp ht]
  exact found_trans '.' hps hst

/-- Reading a joined list of cluster names back gives those names as the patterns. -/
theorem newSelector_clustersToSelector {l : List String} (hne : l ≠ [])
    (hl : ∀ s ∈ l, IsClusterName s) : newSelector (clustersToSelector l) = ⟨l⟩ := by
  have hsplit : split ',' (clustersToSelector l) = l :=
    split_join hne fun s hs hc => nameChar_ne_comma (hl s hs _ hc) rfl
  have htrim : l.map trimSpace = l := by
    conv_rhs => rw [← List.map_id l]
    exact List.map_congr_left fun s hs =>
      trimSpace_eq_self fun c hc => isSpace_of_nameChar (hl s hs c hc)
  rw [newSelector, hsplit, htrim]

/-- The selector sent on selects exactly what one of the joined names matches. -/
theorem has_clustersToSelector {l : List String} (hne : l ≠ []) (hl : ∀ s ∈ l, IsClusterName s)
    (y : String) : (newSelector (clustersToSelector l)).has re y = true ↔
      ∃ x ∈ l, re.matchString x y = true := by
  rw [newSelector_clustersToSelector hne hl, Selector.has, List.any_eq_true]

/-! ## A matcher to run examples with -/

/-- Literals, `.` and a closing `$`, matched at the beginning of the text. -/
def matchesFrom : List Char → List Char → Bool
  | [], _ => true
  | p :: ps, s =>
      if p = '$' ∧ ps = [] then s.isEmpty
      else match s with
        | [] => false
        | a :: as => (p == '.' || p == a) && matchesFrom ps as

/-- The regular expressions built from literals, `.`, an opening `^` and a closing `$`. -/
def searchAnchored (p s : String) : Bool :=
  match p.toList with
  | '^' :: ps => matchesFrom ps s.toList
  | ps => s.toList.tails.any (matchesFrom ps)

theorem matchesFrom_eq : ∀ {p s : List Char}, (∀ c ∈ p, nameChar c = true) →
    matchesFrom p s = OteStack.Lib.PlainPattern.matchesHere '.' p s
  | [], _, _ => rfl
  | c :: p, s, h => by
      have hc : c ≠ '$' := by
        rintro rfl
        exact absurd (h '$' (by simp)) (by decide)
      cases s with
      | nil => simp [matchesFrom, OteStack.Lib.PlainPattern.matchesHere, hc]
      | cons a s =>
          have ih := matchesFrom_eq (p := p) (s := s) fun d hd => h d (List.mem_cons_of_mem _ hd)
          simp [matchesFrom, OteStack.Lib.PlainPattern.matchesHere,
            OteStack.Lib.PlainPattern.symbolMatches, hc, ih]

/-- `regexp.MatchString` on the patterns of `searchAnchored`. -/
def Regexp.anchored : Regexp where
  matchString := searchAnchored
  matchString_name := by
    intro p s hp _
    have hcaret : ∀ ps, p.toList ≠ '^' :: ps := by
      intro ps hps
      exact absurd (hp '^' (by rw [hps]; simp)) (by decide)
    unfold searchAnchored found
    split
    · exact absurd ‹_› (hcaret _)
    · exact congrArg s.toList.tails.any (funext fun _ => matchesFrom_eq hp)

example : (newSelector "^c1$, c2").has Regexp.anchored "c10" = false := by decide

example : (newSelector "c1").has Regexp.anchored "c10" = true := by decide

end OteStack
