/-!
Finite sets kept as a strictly ascending list: one list for each set, so sets with the same
members are equal and the lowest member is the head.
-/

namespace ReplicaRing

/-- A finite set whose members stand in strictly ascending order. -/
structure SortedSet (α : Type) [Ord α] where
  toList : List α
  ascending : toList.Pairwise fun a b => compare a b = .lt

namespace SortedSet

variable {α : Type} [Ord α]

instance : EmptyCollection (SortedSet α) := ⟨⟨[], .nil⟩⟩

instance : Inhabited (SortedSet α) := ⟨∅⟩

instance [DecidableEq α] : DecidableEq (SortedSet α) := fun a b =>
  if h : a.toList = b.toList then
    .isTrue (by cases a; cases b; simp_all)
  else
    .isFalse fun e => h (e ▸ rfl)

instance : Membership α (SortedSet α) := ⟨fun s a => a ∈ s.toList⟩

instance [DecidableEq α] (s : SortedSet α) (a : α) : Decidable (a ∈ s) :=
  inferInstanceAs (Decidable (a ∈ s.toList))

theorem mem_toList {s : SortedSet α} {a : α} : a ∈ s.toList ↔ a ∈ s := .rfl

theorem not_mem_empty (a : α) : a ∉ (∅ : SortedSet α) := List.not_mem_nil

theorem eq_empty {s : SortedSet α} (h : ∀ a, a ∉ s) : s = ∅ := by
  obtain ⟨toList, ascending⟩ := s
  obtain rfl : toList = [] := List.eq_nil_iff_forall_not_mem.2 h
  rfl

def contains (s : SortedSet α) (a : α) : Bool := s.toList.any fun b => compare a b == .eq

def size (s : SortedSet α) : Nat := s.toList.length

def isEmpty (s : SortedSet α) : Bool := s.toList.isEmpty

/-- The lowest member. -/
def first? (s : SortedSet α) : Option α := s.toList.head?

def filter (p : α → Bool) (s : SortedSet α) : SortedSet α where
  toList := s.toList.filter p
  ascending := s.ascending.sublist List.filter_sublist

theorem mem_filter {p : α → Bool} {s : SortedSet α} {a : α} :
    a ∈ s.filter p ↔ a ∈ s ∧ p a = true := List.mem_filter

def erase (s : SortedSet α) (a : α) : SortedSet α := s.filter fun b => compare a b != .eq

/-- The members of `s` that are not in `t`. -/
def diff (s t : SortedSet α) : SortedSet α := s.filter fun a => !t.contains a

/-- The members of `s` that are also in `t`. -/
def inter (s t : SortedSet α) : SortedSet α := s.filter t.contains

section

variable [Std.LawfulEqOrd α]

theorem contains_iff_mem {s : SortedSet α} {a : α} : s.contains a = true ↔ a ∈ s := by
  simp [contains, ← mem_toList]

theorem nodup_toList (s : SortedSet α) : s.toList.Nodup := by
  refine s.ascending.imp ?_
  rintro a b hlt rfl
  simp at hlt

theorem mem_erase {s : SortedSet α} {a b : α} : b ∈ s.erase a ↔ b ∈ s ∧ b ≠ a := by
  rw [erase, mem_filter]
  simp [ne_comm]

theorem mem_diff {s t : SortedSet α} {a : α} : a ∈ s.diff t ↔ a ∈ s ∧ a ∉ t := by
  rw [diff, mem_filter, ← contains_iff_mem (s := t)]
  simp

theorem mem_inter {s t : SortedSet α} {a : α} : a ∈ s.inter t ↔ a ∈ s ∧ a ∈ t := by
  rw [inter, mem_filter, contains_iff_mem]

end

/-! ## Adding members -/

/-- Puts a value at its place in the order, unless it stands there already. -/
def insertMember (a : α) : List α → List α
  | [] => [a]
  | b :: rest =>
    match compare a b with
    | .lt => a :: b :: rest
    | .eq => b :: rest
    | .gt => b :: insertMember a rest

theorem mem_of_mem_insertMember {a x : α} {l : List α} (h : x ∈ insertMember a l) :
    x = a ∨ x ∈ l := by
  induction l with
  | nil => simpa [insertMember] using h
  | cons b tl ih =>
    simp only [insertMember] at h
    split at h <;> simp only [List.mem_cons] at h ⊢ <;> grind

variable [Std.TransOrd α]

theorem pairwise_insertMember (a : α) {l : List α}
    (h : l.Pairwise fun a b => compare a b = .lt) :
    (insertMember a l).Pairwise fun a b => compare a b = .lt := by
  induction l with
  | nil => simp [insertMember]
  | cons b tl ih =>
    obtain ⟨hlt, htl⟩ := List.pairwise_cons.1 h
    simp only [insertMember]
    split
    · rename_i hk
      refine List.pairwise_cons.2 ⟨fun x hx => ?_, h⟩
      rcases List.mem_cons.1 hx with rfl | hx
      · exact hk
      · exact Std.TransCmp.lt_trans hk (hlt x hx)
    · exact h
    · rename_i hk
      refine List.pairwise_cons.2 ⟨fun x hx => ?_, ih htl⟩
      rcases mem_of_mem_insertMember hx with rfl | hx
      · exact Std.OrientedCmp.lt_of_gt hk
      · exact hlt x hx

def insert (s : SortedSet α) (a : α) : SortedSet α where
  toList := insertMember a s.toList
  ascending := pairwise_insertMember a s.ascending

def ofList (l : List α) : SortedSet α := l.foldl insert ∅

/-- All members of either set. -/
def union (s t : SortedSet α) : SortedSet α := t.toList.foldl insert s

variable [Std.LawfulEqOrd α]

theorem mem_insert {s : SortedSet α} {a b : α} : b ∈ s.insert a ↔ b = a ∨ b ∈ s := by
  suffices ∀ l, b ∈ insertMember a l ↔ b = a ∨ b ∈ l from this s.toList
  intro l
  induction l with
  | nil => simp [insertMember]
  | cons c tl ih =>
    simp only [insertMember]
    split
    · simp
    · rename_i h
      simp [Std.compare_eq_iff_eq.1 h]
    · simp only [List.mem_cons, ih]
      grind

theorem mem_foldl_insert {l : List α} {s : SortedSet α} {a : α} :
    a ∈ l.foldl insert s ↔ a ∈ s ∨ a ∈ l := by
  induction l generalizing s with
  | nil => simp
  | cons b tl ih =>
    simp only [List.foldl_cons, ih, mem_insert, List.mem_cons]
    grind

theorem mem_ofList {l : List α} {a : α} : a ∈ ofList l ↔ a ∈ l := by
  simp [ofList, mem_foldl_insert, not_mem_empty]

theorem mem_union {s t : SortedSet α} {a : α} : a ∈ s.union t ↔ a ∈ s ∨ a ∈ t := by
  simp [union, mem_foldl_insert, mem_toList]

end SortedSet

end ReplicaRing
