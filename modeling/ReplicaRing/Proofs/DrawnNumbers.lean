import Mathlib.Data.Nat.ModEq
import Mathlib.Tactic.Common
import ReplicaRing.Node.Ids

/-!
The numbers that a source draws. A number is the node hash above the count of the draw, cut to 48
bits, `IdSource.toNat_getElem_take`. So the numbers of one source come again after 2^48 draws and
not before, those of different nodes never meet, and they rise until the count is cut,
`IdSource.drawn_apart`.
-/

namespace ReplicaRing

namespace IdSource

/-- The numbers of the first draws from a seed. -/
def drawn (nodeHash : UInt16) (seed : UInt64) (n : Nat) : List UInt64 :=
  (take n (ofSeed nodeHash seed)).1

section

variable {s : IdSource} {n i : Nat} {nodeHash : UInt16} {seed : UInt64}

lemma toNat_and_countMask (w : UInt64) : (w &&& countMask).toNat = w.toNat % 2 ^ 48 := by
  rw [UInt64.toNat_and]
  exact Nat.and_two_pow_sub_one_eq_mod w.toNat 48

/-- A number is the node hash above the count. -/
lemma toNat_next (s : IdSource) :
    s.next.1.toNat = s.nodeHash.toNat * 2 ^ 48 + (s.count.toNat + 1) % 2 ^ 48 := by
  have hhash : s.nodeHash.toNat < 2 ^ 16 := s.nodeHash.toNat_lt
  have hhigh : (s.nodeHash.toUInt64 <<< 48).toNat = s.nodeHash.toNat <<< 48 := by
    rw [UInt64.toNat_shiftLeft, UInt16.toNat_toUInt64, show (48 : UInt64).toNat % 64 = 48 from rfl,
      Nat.shiftLeft_eq, Nat.mod_eq_of_lt (by omega)]
  have hlow : ((s.count + 1) &&& countMask).toNat = (s.count.toNat + 1) % 2 ^ 48 := by
    rw [toNat_and_countMask, UInt64.toNat_add]
    exact Nat.mod_mod_of_dvd _ (by decide)
  show ((s.nodeHash.toUInt64 <<< 48) ||| ((s.count + 1) &&& countMask)).toNat = _
  rw [UInt64.toNat_or, hhigh, hlow,
    ← Nat.shiftLeft_add_eq_or_of_lt (Nat.mod_lt _ (Nat.two_pow_pos 48)), Nat.shiftLeft_eq]

lemma length_take (n : Nat) (s : IdSource) : (take n s).1.length = n := by
  induction n generalizing s with
  | zero => rfl
  | succ n ih => exact congrArg (· + 1) (ih s.next.2)

/-- Each draw counts one further than the one before. -/
lemma toNat_getElem_take (h : i < (take n s).1.length) :
    (take n s).1[i].toNat = s.nodeHash.toNat * 2 ^ 48 + (s.count.toNat + i + 1) % 2 ^ 48 := by
  induction n generalizing s i with
  | zero => cases h
  | succ n ih =>
    cases i with
    | zero => exact toNat_next s
    | succ i =>
      have hcount : s.next.2.count.toNat = (s.count.toNat + 1) % 2 ^ 64 := UInt64.toNat_add _ _
      have hrest := ih (s := s.next.2) (i := i) (Nat.lt_of_succ_lt_succ h)
      rw [hcount] at hrest
      refine hrest.trans ?_
      congr 1
      omega

lemma length_drawn (nodeHash : UInt16) (seed : UInt64) (n : Nat) :
    (drawn nodeHash seed n).length = n := length_take n _

lemma toNat_getElem_drawn (h : i < (drawn nodeHash seed n).length) :
    (drawn nodeHash seed n)[i].toNat = nodeHash.toNat * 2 ^ 48 + (seed.toNat + i + 1) % 2 ^ 48 := by
  refine (toNat_getElem_take h).trans ?_
  have hcount : (ofSeed nodeHash seed).count.toNat = seed.toNat % 2 ^ 48 :=
    toNat_and_countMask seed
  rw [hcount]
  congr 1
  omega

/-- A number says which node drew it. -/
lemma nodeHashOf_of_mem {id : UInt64} (h : id ∈ drawn nodeHash seed n) :
    nodeHashOf id = nodeHash := by
  obtain ⟨i, hi, rfl⟩ := List.getElem_of_mem h
  have hnumber := toNat_getElem_drawn hi
  have hhash : nodeHash.toNat < 2 ^ 16 := nodeHash.toNat_lt
  refine UInt16.toNat_inj.1 ?_
  unfold nodeHashOf
  rw [UInt64.toNat_toUInt16, UInt64.toNat_shiftRight, hnumber,
    show (48 : UInt64).toNat % 64 = 48 from rfl, Nat.shiftRight_eq_div_pow]
  omega

end

/-- Two draws from one seed give the same number exactly if a multiple of 2^48 draws lies between
them. Each number says which node drew it, so nodes of different hashes never draw the same one. The
numbers rise as long as the count is not cut. -/
theorem drawn_apart (nodeHash : UInt16) (seed : UInt64) (n : Nat) :
    (∀ (i j : Nat) (hi : i < (drawn nodeHash seed n).length)
        (hj : j < (drawn nodeHash seed n).length),
        (drawn nodeHash seed n)[i] = (drawn nodeHash seed n)[j] ↔ i ≡ j [MOD 2 ^ 48]) ∧
      (drawn nodeHash seed n).length = n ∧
      (∀ id ∈ drawn nodeHash seed n, nodeHashOf id = nodeHash) ∧
      ((seed &&& countMask).toNat + n < 2 ^ 48 → (drawn nodeHash seed n).Pairwise (· < ·)) ∧
      ∀ nodeHash' seed' n', nodeHash' ≠ nodeHash →
        (drawn nodeHash seed n).Disjoint (drawn nodeHash' seed' n') := by
  refine ⟨fun i j hi hj => ?_, length_drawn nodeHash seed n, fun id => nodeHashOf_of_mem,
    fun hfew => ?_, fun nodeHash' seed' n' hother id hid hid' => ?_⟩
  · rw [← UInt64.toNat_inj, toNat_getElem_drawn hi, toNat_getElem_drawn hj]
    unfold Nat.ModEq
    omega
  · rw [List.pairwise_iff_getElem]
    intro i j hi hj hlt
    rw [UInt64.lt_iff_toNat_lt, toNat_getElem_drawn hi, toNat_getElem_drawn hj]
    rw [toNat_and_countMask] at hfew
    rw [length_drawn] at hj
    omega
  · exact hother ((nodeHashOf_of_mem hid').symm.trans (nodeHashOf_of_mem hid))

/-- Two nodes that draw from one seed. -/
theorem drawn_apart_seven : (drawn 7 41 3).Pairwise (· < ·) ∧
    (drawn 7 41 3).Disjoint (drawn 8 41 3) := by
  obtain ⟨-, -, -, hrise, hother⟩ := drawn_apart 7 41 3
  exact ⟨hrise (by decide), hother 8 41 3 (by decide)⟩

/-- The count is cut between the first draw and the second one. -/
example : drawn 7 (2 ^ 48 - 2) 2 = [7 * 2 ^ 48 + (2 ^ 48 - 1), 7 * 2 ^ 48] := by decide

end IdSource

end ReplicaRing
