import Mathlib.Tactic.Common
import ReplicaRing.Node.View

/-!
Neighbours on the ring. The members of a view cut the ring into arcs, each from a member up to its
successor. A node that is no member lies inside exactly one of them, the one that starts at its
predecessor: `View.between_successor_iff`. A view with members gives each node a predecessor,
`View.exists_predecessor`.
-/

namespace ReplicaRing

section

variable {α : Type} [Ord α] [Std.TransOrd α]

/-- Of two different values one is below the other. -/
lemma compare_lt_or_lt [Std.LawfulEqOrd α] {a b : α} (h : a ≠ b) :
    compare a b = .lt ∨ compare b a = .lt := by
  cases hcompare : compare a b with
  | lt => exact .inl rfl
  | eq => exact absurd (Std.LawfulEqCmp.eq_of_compare hcompare) h
  | gt => exact .inr (Std.OrientedCmp.lt_of_gt hcompare)

lemma compare_ne_lt_of_lt {a b : α} (h : compare a b = .lt) : compare b a ≠ .lt := by
  rw [Std.OrientedCmp.gt_of_lt h]
  simp

/-- Nothing in an ascending list is above its last value. -/
lemma compare_getLast_ne_lt {l : List α} (h : l.Pairwise fun a b => compare a b = .lt) {m : α}
    (hm : l.getLast? = some m) : ∀ x ∈ l, compare m x ≠ .lt := by
  obtain ⟨front, rfl⟩ := List.getLast?_eq_some_iff.1 hm
  intro x hx
  rcases List.mem_append.1 hx with hx | hx
  · exact compare_ne_lt_of_lt ((List.pairwise_append.1 h).2.2 x hx m (by simp))
  · rw [List.mem_singleton.1 hx, Std.compare_self]
    simp

/-- Nothing in an ascending list is below its first value. -/
lemma compare_ne_lt_head {l : List α} (h : l.Pairwise fun a b => compare a b = .lt) {s : α}
    (hs : l.head? = some s) : ∀ x ∈ l, compare x s ≠ .lt := by
  obtain ⟨rest, rfl⟩ := List.head?_eq_some_iff.1 hs
  intro x hx
  rcases List.mem_cons.1 hx with rfl | hx
  · rw [Std.compare_self]
    simp
  · exact compare_ne_lt_of_lt ((List.pairwise_cons.1 h).1 x hx)

end

namespace View

variable {v : View} {m n s : NodeId}

/-- The last member before a node around the ring: the highest one below it or, if there is none,
the highest of all. -/
def predecessor? (v : View) (n : NodeId) : Option NodeId :=
  (v.members.toList.filter fun m => (compare m n).isLT).getLast? <|> v.members.toList.getLast?

lemma contains_iff : v.contains n = true ↔ n ∈ v.members := SortedSet.contains_iff_mem

/-- What it is to lie inside an arc that runs through no highest node. -/
lemma between_of_lt {x : NodeId} (h : compare m n = .lt) :
    between m n x = true ↔ compare m x = .lt ∧ compare x n = .lt := by
  unfold between
  simp [h]

/-- What it is to lie inside an arc that runs on from the highest node at the lowest. -/
lemma between_of_not_lt {x : NodeId} (h : compare m n ≠ .lt) :
    between m n x = true ↔ compare m x = .lt ∨ compare x n = .lt := by
  unfold between
  simp [h]

/-! ## Successors -/

/-- The successor of a member is the lowest one above it or, if there is none, the lowest of
all. -/
lemma successor?_cases (hm : m ∈ v.members) :
    ∃ s ∈ v.members, v.successor? m = some s ∧
      ((compare m s = .lt ∧ ∀ x ∈ v.members, compare m x = .lt → compare x s ≠ .lt) ∨
        ((∀ x ∈ v.members, compare m x ≠ .lt) ∧ ∀ x ∈ v.members, compare x s ≠ .lt)) := by
  have hsuccessor : v.successor? m =
      ((v.members.toList.find? fun x => (compare m x).isLT) <|> v.members.first?) :=
    if_pos (contains_iff.2 hm)
  rw [hsuccessor]
  cases hfind : v.members.toList.find? fun x => (compare m x).isLT with
  | some s =>
    obtain ⟨habove, front, back, hlist, hfront⟩ := List.find?_eq_some_iff_append.1 hfind
    have hs : s ∈ v.members.toList := by simp [hlist]
    refine ⟨s, hs, rfl, .inl ⟨by simpa using habove, fun x hx hmx => ?_⟩⟩
    -- what stands before it is not above the member
    have hx : x ∈ front ++ s :: back := hlist ▸ hx
    have hsorted := v.members.ascending
    rw [hlist] at hsorted
    rcases List.mem_append.1 hx with hx | hx
    · simpa [hmx] using hfront x hx
    · exact compare_ne_lt_head (List.pairwise_append.1 hsorted).2.1 rfl x hx
  | none =>
    have hnone : ∀ x ∈ v.members, compare m x ≠ .lt := fun x hx => by
      simpa using List.find?_eq_none.1 hfind x hx
    cases hfirst : v.members.first? with
    | none =>
      have hnil : v.members.toList = [] := List.head?_eq_none_iff.1 hfirst
      rw [← SortedSet.mem_toList, hnil] at hm
      cases hm
    | some s =>
      exact ⟨s, List.mem_of_head? hfirst, rfl,
        .inr ⟨hnone, compare_ne_lt_head v.members.ascending hfirst⟩⟩

/-- A node is inside the arc from a member to its successor exactly if no member is inside the arc
from the member to the node. -/
lemma between_successor_iff_free (hn : n ∉ v.members) (hm : m ∈ v.members)
    (hs : v.successor? m = some s) :
    between m s n = true ↔ ∀ x ∈ v.members, ¬ between m n x = true := by
  obtain ⟨s', hmem, hs', hcases⟩ := successor?_cases hm
  obtain rfl : s' = s := Option.some.inj (hs'.symm.trans hs)
  have hne : s' ≠ n := fun h => hn (h ▸ hmem)
  rcases hcases with ⟨hms, hlowest⟩ | ⟨hhighest, hlowest⟩
  · rw [between_of_lt hms]
    constructor
    · rintro ⟨hmn, hns⟩ x hx hbetween
      rw [between_of_lt hmn] at hbetween
      exact hlowest x hx hbetween.1 (Std.TransCmp.lt_trans hbetween.2 hns)
    · intro hfree
      have hmn : compare m n = .lt := by
        by_contra hnot
        exact hfree s' hmem ((between_of_not_lt hnot).2 (.inl hms))
      refine ⟨hmn, ?_⟩
      rcases compare_lt_or_lt hne with hsn | hns
      · exact absurd ((between_of_lt hmn).2 ⟨hms, hsn⟩) (hfree s' hmem)
      · exact hns
  · -- the arc of the highest member runs on at the lowest one
    rw [between_of_not_lt (hhighest s' hmem)]
    constructor
    · intro harc x hx hbetween
      by_cases hmn : compare m n = .lt
      · exact hhighest x hx ((between_of_lt hmn).1 hbetween).1
      · have hns := harc.resolve_left hmn
        rcases (between_of_not_lt hmn).1 hbetween with hmx | hxn
        · exact hhighest x hx hmx
        · exact hlowest x hx (Std.TransCmp.lt_trans hxn hns)
    · intro hfree
      by_cases hmn : compare m n = .lt
      · exact .inl hmn
      · refine .inr ?_
        rcases compare_lt_or_lt hne with hsn | hns
        · exact absurd ((between_of_not_lt hmn).2 (.inr hsn)) (hfree s' hmem)
        · exact hns

/-! ## Predecessors -/

/-- No member is inside the arc from a predecessor to its node. -/
lemma free_of_predecessor (hm : v.predecessor? n = some m) :
    m ∈ v.members ∧ ∀ x ∈ v.members, ¬ between m n x = true := by
  unfold predecessor? at hm
  cases hbelow : (v.members.toList.filter fun x => (compare x n).isLT).getLast? with
  | some p =>
    rw [hbelow] at hm
    obtain rfl : p = m := Option.some.inj hm
    have hp := List.mem_of_getLast? hbelow
    rw [List.mem_filter] at hp
    have hpn : compare p n = .lt := by simpa using hp.2
    refine ⟨hp.1, fun x hx hbetween => ?_⟩
    obtain ⟨hpx, hxn⟩ := (between_of_lt hpn).1 hbetween
    have hfiltered := v.members.ascending.sublist
      (List.filter_sublist (p := fun x => (compare x n).isLT))
    exact compare_getLast_ne_lt hfiltered hbelow x (List.mem_filter.2 ⟨hx, by simp [hxn]⟩) hpx
  | none =>
    rw [hbelow] at hm
    have hlast : v.members.toList.getLast? = some m := hm
    have hmem : m ∈ v.members := List.mem_of_getLast? hlast
    -- no member is below the node
    have hnone : ∀ x ∈ v.members, compare x n ≠ .lt := fun x hx => by
      have hnil := List.getLast?_eq_none_iff.1 hbelow
      simpa using List.filter_eq_nil_iff.1 hnil x hx
    refine ⟨hmem, fun x hx hbetween => ?_⟩
    rcases (between_of_not_lt (hnone m hmem)).1 hbetween with hmx | hxn
    · exact compare_getLast_ne_lt v.members.ascending hlast x hx hmx
    · exact hnone x hx hxn

/-- Of two members one is inside the arc from the other to a node. -/
lemma eq_of_free {m' : NodeId} (hn : n ∉ v.members) (hm : m ∈ v.members) (hm' : m' ∈ v.members)
    (hfree : ¬ between m n m' = true) (hfree' : ¬ between m' n m = true) : m = m' := by
  -- by symmetry the first is below the second
  have hbelow : ∀ a b : NodeId, a ∈ v.members → b ∈ v.members → ¬ between a n b = true →
      ¬ between b n a = true → compare a b ≠ .lt := by
    intro a b ha hb hab hba hlt
    have hneb : b ≠ n := fun h => hn (h ▸ hb)
    by_cases han : compare a n = .lt
    · rw [between_of_lt han, not_and] at hab
      have hnb := (compare_lt_or_lt hneb).resolve_left (hab hlt)
      exact hba ((between_of_not_lt (compare_ne_lt_of_lt hnb)).2 (.inr han))
    · exact hab ((between_of_not_lt han).2 (.inl hlt))
  by_contra hne
  rcases compare_lt_or_lt hne with hlt | hlt
  · exact hbelow m m' hm hm' hfree hfree' hlt
  · exact hbelow m' m hm' hm hfree' hfree hlt

/-- A view with members gives each node a predecessor. -/
lemma exists_predecessor (hm : m ∈ v.members) (n : NodeId) : ∃ p, v.predecessor? n = some p := by
  unfold predecessor?
  cases hbelow : (v.members.toList.filter fun x => (compare x n).isLT).getLast? with
  | some p => exact ⟨p, rfl⟩
  | none =>
    cases hlast : v.members.toList.getLast? with
    | some p => exact ⟨p, rfl⟩
    | none =>
      rw [← SortedSet.mem_toList, List.getLast?_eq_none_iff.1 hlast] at hm
      cases hm

/-- The predecessor of a node is the member with no other between it and the node. -/
theorem predecessor?_eq_some_iff (hn : n ∉ v.members) :
    v.predecessor? n = some m ↔ m ∈ v.members ∧ ∀ x ∈ v.members, ¬ between m n x = true := by
  refine ⟨free_of_predecessor, fun ⟨hm, hfree⟩ => ?_⟩
  obtain ⟨p, hp⟩ := exists_predecessor hm n
  obtain ⟨hmem, hfree'⟩ := free_of_predecessor hp
  rw [hp, eq_of_free hn hmem hm (hfree' m hm) (hfree p hmem)]

/-- A node that is no member lies on the arc of its predecessor and on no other. -/
theorem between_successor_iff (hn : n ∉ v.members) :
    (∃ s, v.successor? m = some s ∧ between m s n = true) ↔ v.predecessor? n = some m := by
  rw [predecessor?_eq_some_iff hn]
  constructor
  · rintro ⟨s, hs, hbetween⟩
    have hm : m ∈ v.members := by
      by_contra hnot
      have hnone : v.successor? m = none := if_neg (fun h => hnot (contains_iff.1 h))
      rw [hnone] at hs
      cases hs
    exact ⟨hm, (between_successor_iff_free hn hm hs).1 hbetween⟩
  · rintro ⟨hm, hfree⟩
    obtain ⟨s, -, hs, -⟩ := successor?_cases hm
    exact ⟨s, hs, (between_successor_iff_free hn hm hs).2 hfree⟩

end View

end ReplicaRing
