import Mathlib.Algebra.BigOperators.Group.List.Basic
import Mathlib.Algebra.GroupWithZero.Nat
import Mathlib.Data.List.Basic
import ReplicaRing.Sorted.Map

/-!
What maps hold. A map has one list of entries only, so maps that answer every look-up alike are
equal, `SortedMap.ext_get?`. Seen from one key, a map holds the entry of that key, if there is one,
and what is left when the key is erased; its values and any total over its entries are put together
of these two.
-/

namespace ReplicaRing.SortedMap

variable {κ ν : Type} [Ord κ]

/-- Every value passes a test or fails it. -/
lemma perm_filter (m : SortedMap κ ν) (p : κ → ν → Bool) :
    ((m.filter p).values ++ (m.filter fun k v => !p k v).values).Perm m.values := by
  unfold values
  rw [← List.map_append]
  exact (List.filter_append_perm (fun e => p e.1 e.2) m.entries).map Prod.snd

variable [Std.LawfulEqOrd κ] {m m' : SortedMap κ ν} {k : κ} {v : ν}

lemma mem_keys_filter {p : κ → ν → Bool} (h : k ∈ (m.filter p).keys) :
    ∃ v, m.get? k = some v ∧ p k v = true := by
  obtain ⟨e, he, rfl⟩ := List.mem_map.1 h
  obtain ⟨hmem, hp⟩ := List.mem_filter.1 he
  exact ⟨e.2, get?_eq_some_iff.2 hmem, hp⟩

lemma nodup_entries (m : SortedMap κ ν) : m.entries.Nodup := by
  refine m.ascending.imp ?_
  rintro a b hlt rfl
  rw [Std.compare_self] at hlt
  cases hlt

section

variable [Std.TransOrd κ]

/-- Maps that answer every look-up alike are equal. -/
theorem ext_get? (h : ∀ k, m.get? k = m'.get? k) : m = m' := by
  have hperm : m.entries.Perm m'.entries := by
    refine (List.perm_ext_iff_of_nodup m.nodup_entries m'.nodup_entries).2 fun e => ?_
    have hiff : m.get? e.1 = some e.2 ↔ m'.get? e.1 = some e.2 := by rw [h]
    rwa [get?_eq_some_iff, get?_eq_some_iff] at hiff
  have heq : m.entries = m'.entries := by
    refine hperm.eq_of_pairwise (fun a b _ _ hab hba => ?_) m.ascending m'.ascending
    cases (Std.OrientedCmp.gt_of_lt hab).symm.trans hba
  obtain ⟨entries, ascending⟩ := m
  cases heq
  rfl

variable [DecidableEq κ]

lemma erase_of_get?_eq_none (h : m.get? k = none) : m.erase k = m := by
  refine ext_get? fun k' => ?_
  rw [get?_erase]
  split
  · rename_i heq
    rw [heq, h]
  · rfl

/-- What is put in at a key is gone when the key is erased. -/
lemma erase_insert_self (m : SortedMap κ ν) (k : κ) (v : ν) :
    (m.insert k v).erase k = m.erase k := by
  refine ext_get? fun k' => ?_
  rw [get?_erase, get?_erase, get?_insert]
  split
  · rfl
  · rfl

/-- An entry that is put in and taken out again leaves no trace. -/
lemma erase_insert (v : ν) (h : m.get? k = none) : (m.insert k v).erase k = m := by
  rw [erase_insert_self, erase_of_get?_eq_none h]

end

/-! ## An entry and the rest -/

/-- A key's entry and what is left without it. -/
lemma perm_erase_entries (h : m.get? k = some v) :
    m.entries.Perm ((k, v) :: (m.erase k).entries) := by
  obtain ⟨front, back, hsplit⟩ := List.append_of_mem (get?_eq_some_iff.1 h)
  have hasc := m.ascending
  rw [hsplit] at hasc
  obtain ⟨-, hback, hcross⟩ := List.pairwise_append.1 hasc
  -- the entries in front have lower keys, those behind have higher ones
  have hne : ∀ e ∈ front ++ back, (compare k e.1 != .eq) = true := by
    intro e he
    rw [bne_iff_ne, ne_eq, Std.compare_eq_iff_eq]
    rintro rfl
    rcases List.mem_append.1 he with he | he
    · have hlt := hcross e he (e.1, v) List.mem_cons_self
      rw [Std.compare_self] at hlt
      cases hlt
    · have hlt := (List.pairwise_cons.1 hback).1 e he
      rw [Std.compare_self] at hlt
      cases hlt
  have herase : (m.erase k).entries = front ++ back := by
    show m.entries.filter (fun e => compare k e.1 != .eq) = _
    rw [hsplit, List.filter_append, List.filter_cons_of_neg (by simp), ← List.filter_append,
      List.filter_eq_self.2 hne]
  rw [herase, hsplit]
  exact List.perm_middle

/-- A value that is taken out was one of the values. -/
lemma perm_erase (h : m.get? k = some v) : m.values.Perm (v :: (m.erase k).values) :=
  (perm_erase_entries h).map Prod.snd

section

variable [Std.TransOrd κ] [DecidableEq κ]

/-- A value under a new key joins the values. -/
lemma perm_insert (h : m.contains k = false) :
    (m.insert k v).values.Perm (v :: m.values) := by
  have hnone : m.get? k = none := by simpa [contains] using h
  have hself : (m.insert k v).get? k = some v := by rw [get?_insert, if_pos rfl]
  simpa [erase_insert v hnone] using perm_erase hself

lemma size_insert (v : ν) (h : m.get? k = none) : (m.insert k v).size = m.size + 1 := by
  have hself : (m.insert k v).get? k = some v := by rw [get?_insert, if_pos rfl]
  have hperm := perm_erase_entries hself
  rw [erase_insert v h] at hperm
  exact hperm.length_eq

end

/-! ## Totals -/

/-- The sum of a measure of the entries. -/
def total (f : κ → ν → Nat) (m : SortedMap κ ν) : Nat := (m.entries.map fun e => f e.1 e.2).sum

/-- A total is what the key adds to it and the total of the rest. -/
lemma total_eq [Std.TransOrd κ] [DecidableEq κ] (f : κ → ν → Nat) (m : SortedMap κ ν) (k : κ) :
    m.total f = (m.get? k).elim 0 (f k) + (m.erase k).total f := by
  cases h : m.get? k with
  | none => rw [erase_of_get?_eq_none h, Option.elim_none, Nat.zero_add]
  | some v =>
    have hsum := ((perm_erase_entries h).map fun e => f e.1 e.2).sum_eq
    rwa [List.map_cons, List.sum_cons] at hsum

omit [Std.LawfulEqOrd κ] in
lemma total_one (m : SortedMap κ ν) : m.total (fun _ _ => 1) = m.size := by
  unfold total size
  simp

end ReplicaRing.SortedMap
