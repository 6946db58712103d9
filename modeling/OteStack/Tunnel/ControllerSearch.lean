/-
# OteStack.Tunnel.ControllerSearch — drawing a controller manager from a slice of addresses.

`removeFromSliceByValue` and `findAController` of `pkg/tunnel/cloudtunnel.go`.  The search draws an address
at random; one without a client is removed from the slice of the search, and the search goes on with what is
left.  That slice views the array of the caller's slice, so the removal shifts the elements of the caller's
slice as well, whose length stays as it is (`removeFromSliceByValue_spec`).

On the list of addresses a search is `searchKeys`, and the search on the arrays refines it
(`findAController_eq`).  It loses no address with a client, and finds a client if an address has one.  It leaves
the list as it is exactly when no address without a client is drawn but the last one (`searchKeys_perm_iff`).
-/
import OteStack.Lib.GoMap
import OteStack.Lib.GoSlice

namespace OteStack

open OteStack.Lib (Arrays GoMap Slice)

namespace CloudTunnel

/-! ## Removing and searching -/

variable (grow : ℕ → ℕ → ℕ)

/-- Go's `removeFromSliceByValue`. -/
def removeFromSliceByValue (arrays : Arrays String) (slice : Slice) (s : String) : Arrays String × Slice :=
  match (slice.elems arrays).idxOf? s with
  | none => (arrays, slice)
  | some n => (slice.upTo n).append grow arrays ((slice.after (n + 1)).elems arrays)

/-- Go's `findAController`: the client found, if any, and the arrays afterwards.  `rand` says what is drawn
from each number of addresses; `none` is a search that has not returned after `fuel` calls. -/
def findAController (clientMap : GoMap String ℕ) (rand : ℕ → ℕ) :
    ℕ → Arrays String → Slice → Option (Option ℕ × Arrays String)
  | 0, _, _ => none
  | fuel + 1, arrays, clientKey =>
      if clientKey.len = 0 then some (none, arrays)
      else
        let clientName := (clientKey.elems arrays).getD (rand clientKey.len % clientKey.len) ""
        match clientMap.get clientName with
        | some client => some (some client, arrays)
        | none =>
            let (arrays, clientKey) := removeFromSliceByValue grow arrays clientKey clientName
            findAController clientMap rand fuel arrays clientKey

/-- What a search does to the list of all addresses when it still has the first `m` of them: an address
without a client is taken out of those, and the others of them move up. -/
def searchKeys (clientMap : GoMap String ℕ) (rand : ℕ → ℕ) : ℕ → List String → Option ℕ × List String
  | 0, keys => (none, keys)
  | m + 1, keys =>
      let clientName := keys.getD (rand (m + 1) % (m + 1)) ""
      match clientMap.get clientName with
      | some client => (some client, keys)
      | none => searchKeys clientMap rand m ((keys.take (m + 1)).erase clientName ++ keys.drop m)

variable {grow} {arrays : Arrays String} {s t : Slice} {clientMap : GoMap String ℕ} {rand : ℕ → ℕ}

/-- A removal takes the first occurrence out of the slice it returns.  A longer slice of the same array
sees the later elements move up, and the last one stay as well. -/
theorem removeFromSliceByValue_spec (grow : ℕ → ℕ → ℕ) (hs : s.Valid arrays) (ht : t.Valid arrays)
    (hext : t.Extends s) {name : String} (hmem : name ∈ s.elems arrays) :
    ∃ arrays' s', removeFromSliceByValue grow arrays s name = (arrays', s') ∧ s'.len + 1 = s.len ∧
      t.Extends s' ∧ s'.Valid arrays' ∧ s'.elems arrays' = (s.elems arrays).erase name ∧ t.Valid arrays' ∧
      t.elems arrays' = (s.elems arrays).erase name ++ (t.elems arrays).drop s'.len := by
  obtain ⟨n, hn⟩ := Option.isSome_iff_exists.mp (List.isSome_idxOf?.mpr hmem)
  have hlt : n < s.len := Slice.length_elems hs ▸ (List.idxOf?_eq_some_iff.mp hn).1
  have herase : (s.elems arrays).erase name = (s.elems arrays).eraseIdx n := by
    rw [List.erase_eq_eraseIdx, hn]
  have hremove : removeFromSliceByValue grow arrays s name =
      (((s.upTo n).append grow arrays ((s.after (n + 1)).elems arrays)).1, s.upTo (s.len - 1)) := by
    rw [removeFromSliceByValue, hn, ← Slice.slice_remove grow hs hlt]
  obtain ⟨helems, hvalid⟩ := Slice.elems_remove grow hs hlt
  obtain ⟨hshared, ht'⟩ := Slice.elems_remove_shared grow hs ht hext hlt
  rw [herase]
  refine ⟨_, _, hremove, ?_, ?_, hvalid, helems, ht', hshared⟩
  · exact Nat.sub_add_cancel (Nat.zero_lt_of_lt hlt)
  · exact ⟨hext.1, hext.2.1, (Nat.sub_le _ _).trans hext.2.2⟩

theorem getD_mem {l : List String} {i : ℕ} (h : i < l.length) : l.getD i "" ∈ l := by
  simp [List.getD, List.getElem?_eq_getElem h]

/-- The search on the arrays does to the tunnel's slice `t` what the search on the list does. -/
theorem findAController_eq {fuel : ℕ} (hfuel : s.len < fuel) (hs : s.Valid arrays) (ht : t.Valid arrays)
    (hext : t.Extends s) :
    ∃ arrays', findAController grow clientMap rand fuel arrays s =
        some ((searchKeys clientMap rand s.len (t.elems arrays)).1, arrays') ∧
      t.Valid arrays' ∧ t.elems arrays' = (searchKeys clientMap rand s.len (t.elems arrays)).2 := by
  induction fuel generalizing arrays s with
  | zero => exact absurd hfuel (Nat.not_lt_zero _)
  | succ fuel ih =>
      cases hlen : s.len with
      | zero => exact ⟨arrays, by simp [findAController, hlen, searchKeys], ht, rfl⟩
      | succ m =>
          have hpick : rand (m + 1) % (m + 1) < m + 1 := Nat.mod_lt _ (Nat.succ_pos m)
          have hselems : s.elems arrays = (t.elems arrays).take (m + 1) := hlen ▸ hext.elems_eq
          have hname : (s.elems arrays).getD (rand (m + 1) % (m + 1)) "" =
              (t.elems arrays).getD (rand (m + 1) % (m + 1)) "" := by
            rw [hselems, List.getD, List.getD, List.getElem?_take_of_lt hpick]
          have hmem : (t.elems arrays).getD (rand (m + 1) % (m + 1)) "" ∈ s.elems arrays := by
            have hin : rand (m + 1) % (m + 1) < (s.elems arrays).length := by
              rw [Slice.length_elems hs, hlen]
              exact hpick
            rw [← hname]
            exact getD_mem hin
          rw [findAController, if_neg (by omega), searchKeys]
          simp only [hlen, hname]
          cases hclient : clientMap.get ((t.elems arrays).getD (rand (m + 1) % (m + 1)) "") with
          | some client => exact ⟨arrays, rfl, ht, rfl⟩
          | none =>
              obtain ⟨arrays', s', hremove, hlen', hext', hs', -, ht', helems⟩ :=
                removeFromSliceByValue_spec grow hs ht hext hmem
              have hm : s'.len = m := Nat.succ.inj (hlen'.trans hlen)
              obtain ⟨arrays'', hfind, hvalid, hkeys⟩ := ih (by omega) hs' ht' hext'
              rw [hm, helems, hselems, hm] at hfind hkeys
              exact ⟨arrays'', by rw [hremove]; exact hfind, hvalid, hkeys⟩

/-! ## What a search finds and keeps -/

variable {keys : List String}

theorem length_search {m : ℕ} {name : String} (hmem : name ∈ keys.take (m + 1)) (hm : m + 1 ≤ keys.length) :
    ((keys.take (m + 1)).erase name ++ keys.drop m).length = keys.length := by
  rw [List.length_append, List.length_erase_of_mem hmem, List.length_take, List.length_drop]
  omega

theorem take_search {m : ℕ} {name : String} (hmem : name ∈ keys.take (m + 1)) (hm : m + 1 ≤ keys.length) :
    ((keys.take (m + 1)).erase name ++ keys.drop m).take m = (keys.take (m + 1)).erase name := by
  have hlen : ((keys.take (m + 1)).erase name).length = m := by
    rw [List.length_erase_of_mem hmem, List.length_take]
    omega
  exact List.take_left' hlen

theorem getD_mem_take {m i : ℕ} (hi : i < m + 1) (hm : m + 1 ≤ keys.length) :
    keys.getD i "" ∈ keys.take (m + 1) := by
  have hlt : i < (keys.take (m + 1)).length := by
    rw [List.length_take]
    omega
  have hget : keys.getD i "" = (keys.take (m + 1)).getD i "" := by
    rw [List.getD, List.getD, List.getElem?_take_of_lt hi]
  rw [hget]
  exact getD_mem hlt

/-- A search keeps the number of addresses, and every address with a client. -/
theorem searchKeys_keeps {m : ℕ} (hm : m ≤ keys.length) :
    (searchKeys clientMap rand m keys).2.length = keys.length ∧
      ∀ k ∈ keys, clientMap.get k ≠ none → k ∈ (searchKeys clientMap rand m keys).2 := by
  induction m generalizing keys with
  | zero => exact ⟨rfl, fun k hk _ => hk⟩
  | succ m ih =>
      have hmem := getD_mem_take (Nat.mod_lt (rand (m + 1)) (Nat.succ_pos m)) hm
      rw [searchKeys]
      cases hclient : clientMap.get (keys.getD (rand (m + 1) % (m + 1)) "") with
      | some client => exact ⟨rfl, fun k hk _ => hk⟩
      | none =>
          have hlen := length_search hmem hm
          obtain ⟨hlength, hkeeps⟩ := ih (hlen ▸ Nat.le_of_succ_le hm)
          refine ⟨hlength.trans hlen, fun k hk hlive => hkeeps k ?_ hlive⟩
          -- an address with a client is not the one drawn
          have hne : k ≠ keys.getD (rand (m + 1) % (m + 1)) "" := by
            rintro rfl
            exact hlive hclient
          rw [← List.take_append_drop (m + 1) keys, List.mem_append] at hk
          rcases hk with hk | hk
          · exact List.mem_append_left _ ((List.mem_erase_of_ne hne).mpr hk)
          · exact List.mem_append_right _ (List.drop_subset_drop_left keys (Nat.le_succ m) hk)

/-- A search that finds nothing has seen every address, and none has a client. -/
theorem searchKeys_none {m : ℕ} (hm : m ≤ keys.length) (h : (searchKeys clientMap rand m keys).1 = none) :
    ∀ k ∈ keys.take m, clientMap.get k = none := by
  induction m generalizing keys with
  | zero => simp
  | succ m ih =>
      have hmem := getD_mem_take (Nat.mod_lt (rand (m + 1)) (Nat.succ_pos m)) hm
      rw [searchKeys] at h
      cases hclient : clientMap.get (keys.getD (rand (m + 1) % (m + 1)) "") with
      | some client =>
          simp only [hclient] at h
          cases h
      | none =>
          simp only [hclient] at h
          have hrest := ih (length_search hmem hm ▸ Nat.le_of_succ_le hm) h
          rw [take_search hmem hm] at hrest
          intro k hk
          by_cases hkname : k = keys.getD (rand (m + 1) % (m + 1)) ""
          · rw [hkname]
            exact hclient
          · exact hrest k ((List.mem_erase_of_ne hkname).mpr hk)

/-- What a search finds is the client of one of the addresses. -/
theorem searchKeys_some {m : ℕ} (hm : m ≤ keys.length) {client : ℕ}
    (h : (searchKeys clientMap rand m keys).1 = some client) :
    ∃ addr ∈ keys, clientMap.get addr = some client := by
  induction m generalizing keys with
  | zero => cases h
  | succ m ih =>
      have hmem := getD_mem_take (Nat.mod_lt (rand (m + 1)) (Nat.succ_pos m)) hm
      rw [searchKeys] at h
      cases hclient : clientMap.get (keys.getD (rand (m + 1) % (m + 1)) "") with
      | some c =>
          simp only [hclient] at h
          exact ⟨_, List.mem_of_mem_take hmem, hclient.trans h⟩
      | none =>
          simp only [hclient] at h
          obtain ⟨addr, haddr, hget⟩ := ih (length_search hmem hm ▸ Nat.le_of_succ_le hm) h
          refine ⟨addr, ?_, hget⟩
          rcases List.mem_append.mp haddr with haddr | haddr
          · exact List.mem_of_mem_take (List.mem_of_mem_erase haddr)
          · exact List.mem_of_mem_drop haddr

/-! ## When a search leaves the addresses as they are -/

/-- Every address without a client that the search draws is the last of those it draws it from. -/
def DrawsLast (clientMap : GoMap String ℕ) (rand : ℕ → ℕ) : ℕ → List String → Prop
  | 0, _ => True
  | m + 1, left =>
      let clientName := left.getD (rand (m + 1) % (m + 1)) ""
      clientMap.get clientName = none →
        left.getLast? = some clientName ∧ DrawsLast clientMap rand m (left.erase clientName)

/-- An address that is the last one, or none, is so after another removal. -/
theorem getLast?_erase {l : List String} {x z : String} (h : z ∉ l ∨ l.getLast? = some z) :
    z ∉ l.erase x ∨ (l.erase x).getLast? = some z := by
  rcases h with h | h
  · exact Or.inl fun hmem => h (List.mem_of_mem_erase hmem)
  · obtain ⟨front, rfl⟩ := List.getLast?_eq_some_iff.mp h
    by_cases hx : x ∈ front
    · rw [List.erase_append_left _ hx]
      exact Or.inr (by simp)
    · rw [List.erase_append_right _ hx]
      by_cases hxz : x = z
      · subst hxz
        exact Or.inl (by simpa using hx)
      · have hkept : [z].erase x = [z] := List.erase_of_not_mem (by simpa using hxz)
        rw [hkept]
        exact Or.inr (by simp)

theorem getLast?_take {m : ℕ} (hm : m + 1 ≤ keys.length) : (keys.take (m + 1)).getLast? = keys[m]? := by
  rw [List.getLast?_eq_getElem?, List.length_take_of_le hm, Nat.add_sub_cancel,
    List.getElem?_take_of_lt (Nat.lt_succ_self m)]

theorem exists_getLast {m : ℕ} (hm : m + 1 ≤ keys.length) : ∃ z, (keys.take (m + 1)).getLast? = some z := by
  rw [getLast?_take hm]
  exact ⟨_, List.getElem?_eq_getElem hm⟩

/-- A removal by the search takes out one entry of the address, and repeats the last one. -/
theorem perm_search {m : ℕ} {name z : String} (hmem : name ∈ keys.take (m + 1)) (hm : m + 1 ≤ keys.length)
    (hz : (keys.take (m + 1)).getLast? = some z) :
    ((keys.take (m + 1)).erase name ++ keys.drop m).Perm (z :: keys.erase name) := by
  obtain ⟨hlt, hget⟩ := List.getElem?_eq_some_iff.mp ((getLast?_take hm).symm.trans hz)
  have hdrop : keys.drop m = z :: keys.drop (m + 1) := by rw [List.drop_eq_getElem_cons hlt, hget]
  have herase : keys.erase name = (keys.take (m + 1)).erase name ++ keys.drop (m + 1) := by
    rw [← List.erase_append_left _ hmem, List.take_append_drop]
  rw [hdrop, herase]
  exact List.perm_middle

/-- The address that is the last one to draw from, or not among them, loses no entry. -/
theorem count_le_searchKeys {m : ℕ} {z : String} (hm : m ≤ keys.length)
    (hz : z ∉ keys.take m ∨ (keys.take m).getLast? = some z) :
    keys.count z ≤ (searchKeys clientMap rand m keys).2.count z := by
  induction m generalizing keys with
  | zero => exact Nat.le_refl _
  | succ m ih =>
      have hmem := getD_mem_take (Nat.mod_lt (rand (m + 1)) (Nat.succ_pos m)) hm
      rw [searchKeys]
      set name := keys.getD (rand (m + 1) % (m + 1)) "" with hname
      cases hclient : clientMap.get name with
      | some client => exact Nat.le_refl _
      | none =>
          obtain ⟨w, hw⟩ := exists_getLast hm
          have hlen := length_search hmem hm
          refine le_trans ?_ (ih (hlen ▸ Nat.le_of_succ_le hm) ?_)
          · rw [(perm_search hmem hm hw).count_eq, List.count_cons]
            by_cases hzn : z = name
            · -- it is drawn itself, so it is the last one, which is repeated
              obtain rfl : z = w := by
                rcases hz with hz | hz
                · exact absurd (hzn ▸ hmem) hz
                · exact Option.some.inj (hz.symm.trans hw)
              rw [← hzn, List.count_erase_self]
              simp only [BEq.rfl, if_true]
              omega
            · rw [List.count_erase_of_ne hzn]
              exact Nat.le_add_right _ _
          · rw [take_search hmem hm]
            exact getLast?_erase hz

/-- A search leaves the entries as they are, up to their order, exactly if every address without a client that
it draws is the last one. -/
theorem searchKeys_perm_iff {m : ℕ} (hm : m ≤ keys.length) :
    (searchKeys clientMap rand m keys).2.Perm keys ↔ DrawsLast clientMap rand m (keys.take m) := by
  induction m generalizing keys with
  | zero => exact iff_of_true (List.Perm.refl _) trivial
  | succ m ih =>
      have hpick : rand (m + 1) % (m + 1) < m + 1 := Nat.mod_lt _ (Nat.succ_pos m)
      have hmem := getD_mem_take hpick hm
      have hdrawn : (keys.take (m + 1)).getD (rand (m + 1) % (m + 1)) "" =
          keys.getD (rand (m + 1) % (m + 1)) "" := by
        rw [List.getD, List.getD, List.getElem?_take_of_lt hpick]
      rw [searchKeys, DrawsLast]
      simp only [hdrawn]
      set name := keys.getD (rand (m + 1) % (m + 1)) "" with hname
      cases hclient : clientMap.get name with
      | some client => exact iff_of_true (List.Perm.refl _) (fun h => by cases h)
      | none =>
          obtain ⟨w, hw⟩ := exists_getLast hm
          have hm' : m ≤ ((keys.take (m + 1)).erase name ++ keys.drop m).length :=
            length_search hmem hm ▸ Nat.le_of_succ_le hm
          have hperm := perm_search hmem hm hw
          have hrest := ih hm'
          rw [take_search hmem hm] at hrest
          by_cases hnw : name = w
          · have hsame : (w :: keys.erase name).Perm keys :=
              hnw ▸ (List.perm_cons_erase (List.mem_of_mem_take hmem)).symm
            constructor
            · intro h _
              exact ⟨hnw ▸ hw, hrest.mp (h.trans (hperm.trans hsame).symm)⟩
            · intro h
              exact (hrest.mpr (h rfl).2).trans (hperm.trans hsame)
          · -- the last one has an entry more, and keeps it
            refine iff_of_false (fun h => ?_) (fun h => ?_)
            · have hlast := getLast?_erase (x := name) (Or.inr hw)
              rw [← take_search hmem hm] at hlast
              have hle : _ ≤ (searchKeys clientMap rand m _).2.count w := count_le_searchKeys hm' hlast
              rw [h.count_eq, hperm.count_eq, List.count_cons_self,
                List.count_erase_of_ne (Ne.symm hnw)] at hle
              omega
            · exact hnw (Option.some.inj ((h rfl).1.symm.trans hw))

/-- A search among addresses with a client draws none without. -/
theorem drawsLast_of_live {m : ℕ} {left : List String} (hm : m ≤ left.length)
    (hlive : ∀ k ∈ left, clientMap.get k ≠ none) : DrawsLast clientMap rand m left := by
  cases m with
  | zero => trivial
  | succ m =>
      have hmem := getD_mem_take (Nat.mod_lt (rand (m + 1)) (Nat.succ_pos m)) hm
      intro hnone
      exact absurd hnone (hlive _ (List.mem_of_mem_take hmem))

end CloudTunnel

end OteStack
