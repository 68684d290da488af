/-!
Finite maps kept as a list of entries in ascending key order, no key twice. A map has one
list only, so two maps that answer every look-up alike are equal, and walking a map is walking
its list.
-/

namespace ReplicaRing

/-- A finite map whose entries stand in strictly ascending key order. -/
structure SortedMap (κ ν : Type) [Ord κ] where
  entries : List (κ × ν)
  ascending : entries.Pairwise fun a b => compare a.1 b.1 = .lt

namespace SortedMap

variable {κ ν : Type} [Ord κ]

/-! ## Look-up -/

instance : EmptyCollection (SortedMap κ ν) := ⟨⟨[], .nil⟩⟩

instance : Inhabited (SortedMap κ ν) := ⟨∅⟩

instance [DecidableEq κ] [DecidableEq ν] : DecidableEq (SortedMap κ ν) := fun a b =>
  if h : a.entries = b.entries then
    .isTrue (by cases a; cases b; simp_all)
  else
    .isFalse fun e => h (e ▸ rfl)

/-- The value of the first entry whose key compares equal. -/
def lookup (k : κ) : List (κ × ν) → Option ν
  | [] => none
  | (k', v) :: rest => if compare k k' = .eq then some v else lookup k rest

def get? (m : SortedMap κ ν) (k : κ) : Option ν := lookup k m.entries

theorem get?_empty (k : κ) : (∅ : SortedMap κ ν).get? k = none := rfl

def contains (m : SortedMap κ ν) (k : κ) : Bool := (m.get? k).isSome

def size (m : SortedMap κ ν) : Nat := m.entries.length

def isEmpty (m : SortedMap κ ν) : Bool := m.entries.isEmpty

def keys (m : SortedMap κ ν) : List κ := m.entries.map Prod.fst

def values (m : SortedMap κ ν) : List ν := m.entries.map Prod.snd

/-! ## Removing and changing entries -/

/-- Keeps the entries that satisfy the test. -/
def filter (p : κ → ν → Bool) (m : SortedMap κ ν) : SortedMap κ ν where
  entries := m.entries.filter fun e => p e.1 e.2
  ascending := m.ascending.sublist List.filter_sublist

def erase (m : SortedMap κ ν) (k : κ) : SortedMap κ ν := m.filter fun k' _ => compare k k' != .eq

/-- Changes every value, keys untouched. -/
def map {ν' : Type} (f : κ → ν → ν') (m : SortedMap κ ν) : SortedMap κ ν' where
  entries := m.entries.map fun e => (e.1, f e.1 e.2)
  ascending := List.pairwise_map.2 (m.ascending.imp id)

/-! ## What a look-up finds -/

section

variable [Std.LawfulEqOrd κ]

theorem lookup_eq_some_iff {k : κ} {v : ν} {l : List (κ × ν)}
    (h : l.Pairwise fun a b => compare a.1 b.1 = .lt) : lookup k l = some v ↔ (k, v) ∈ l := by
  induction l with
  | nil => simp [lookup]
  | cons hd tl ih =>
    obtain ⟨hlt, htl⟩ := List.pairwise_cons.1 h
    have hself : ∀ w, (hd.1, w) ∉ tl := fun w hw => by simpa using hlt _ hw
    by_cases hk : k = hd.1
    · subst hk
      simp only [lookup, Std.compare_self, if_true, List.mem_cons, Option.some.injEq, hself,
        or_false]
      grind
    · simp only [lookup, Std.compare_eq_iff_eq, hk, if_false, ih htl, List.mem_cons]
      grind

/-- A look-up finds exactly the entries. -/
theorem get?_eq_some_iff {m : SortedMap κ ν} {k : κ} {v : ν} :
    m.get? k = some v ↔ (k, v) ∈ m.entries := lookup_eq_some_iff m.ascending

/-- What is found is found under one of the keys. -/
theorem mem_keys_of_get? {m : SortedMap κ ν} {k : κ} {v : ν} (h : m.get? k = some v) :
    k ∈ m.keys := List.mem_map.2 ⟨(k, v), get?_eq_some_iff.1 h, rfl⟩

/-- A map in which nothing is found is empty. -/
theorem eq_empty {m : SortedMap κ ν} (h : ∀ k, m.get? k = none) : m = ∅ := by
  obtain ⟨entries, ascending⟩ := m
  cases entries with
  | nil => rfl
  | cons first rest =>
    have hget : (⟨first :: rest, ascending⟩ : SortedMap κ ν).get? first.1 = some first.2 :=
      get?_eq_some_iff.2 List.mem_cons_self
    rw [h first.1] at hget
    cases hget

theorem get?_filter (p : κ → ν → Bool) (m : SortedMap κ ν) (k : κ) :
    (m.filter p).get? k = (m.get? k).filter (p k) := by
  ext v
  simp [get?_eq_some_iff, filter, Option.filter_eq_some_iff]

theorem get?_erase [DecidableEq κ] (m : SortedMap κ ν) (k k' : κ) :
    (m.erase k).get? k' = if k' = k then none else m.get? k' := by
  rw [erase, get?_filter]
  by_cases h : k' = k
  · simp [h]
  · cases m.get? k' <;> simp [h, Ne.symm h]

theorem get?_map {ν' : Type} (f : κ → ν → ν') (m : SortedMap κ ν) (k : κ) :
    (m.map f).get? k = (m.get? k).map (f k) := by
  suffices ∀ l, lookup k (l.map fun e => (e.1, f e.1 e.2)) = (lookup k l).map (f k) from
    this m.entries
  intro l
  induction l with
  | nil => rfl
  | cons hd tl ih =>
    simp only [List.map_cons, lookup, ih, Std.compare_eq_iff_eq]
    split <;> simp_all

end

/-! ## Adding entries -/

/-- Puts an entry at its place in the order; an entry of the same key gives way. -/
def insertEntry (k : κ) (v : ν) : List (κ × ν) → List (κ × ν)
  | [] => [(k, v)]
  | (k', v') :: rest =>
    match compare k k' with
    | .lt => (k, v) :: (k', v') :: rest
    | .eq => (k, v) :: rest
    | .gt => (k', v') :: insertEntry k v rest

theorem mem_insertEntry {k : κ} {v : ν} {e : κ × ν} {l : List (κ × ν)}
    (h : e ∈ insertEntry k v l) : e = (k, v) ∨ e ∈ l := by
  induction l with
  | nil => simpa [insertEntry] using h
  | cons hd tl ih =>
    simp only [insertEntry] at h
    split at h <;> simp only [List.mem_cons] at h ⊢ <;> grind

variable [Std.TransOrd κ] [Std.LawfulEqOrd κ]

theorem pairwise_insertEntry (k : κ) (v : ν) {l : List (κ × ν)}
    (h : l.Pairwise fun a b => compare a.1 b.1 = .lt) :
    (insertEntry k v l).Pairwise fun a b => compare a.1 b.1 = .lt := by
  induction l with
  | nil => simp [insertEntry]
  | cons hd tl ih =>
    obtain ⟨hlt, htl⟩ := List.pairwise_cons.1 h
    simp only [insertEntry]
    split
    · rename_i hk
      refine List.pairwise_cons.2 ⟨fun e he => ?_, h⟩
      rcases List.mem_cons.1 he with rfl | he
      · exact hk
      · exact Std.TransCmp.lt_trans hk (hlt e he)
    · rename_i hk
      obtain rfl := Std.LawfulEqCmp.eq_of_compare hk
      exact List.pairwise_cons.2 ⟨hlt, htl⟩
    · rename_i hk
      refine List.pairwise_cons.2 ⟨fun e he => ?_, ih htl⟩
      rcases mem_insertEntry he with rfl | he
      · exact Std.OrientedCmp.lt_of_gt hk
      · exact hlt e he

def insert (m : SortedMap κ ν) (k : κ) (v : ν) : SortedMap κ ν where
  entries := insertEntry k v m.entries
  ascending := pairwise_insertEntry k v m.ascending

theorem get?_insert [DecidableEq κ] (m : SortedMap κ ν) (k k' : κ) (v : ν) :
    (m.insert k v).get? k' = if k' = k then some v else m.get? k' := by
  suffices ∀ l, lookup k' (insertEntry k v l) = if k' = k then some v else lookup k' l from
    this m.entries
  intro l
  induction l with
  | nil => simp [insertEntry, lookup]
  | cons hd tl ih =>
    simp only [insertEntry]
    split
    · simp [lookup]
    · rename_i hk
      simp only [lookup, Std.compare_eq_iff_eq.1 hk, Std.compare_eq_iff_eq]
      split <;> rfl
    · rename_i hk
      simp only [lookup, ih, Std.compare_eq_iff_eq]
      by_cases h : k' = hd.1
      · subst h
        have : hd.1 ≠ k := by
          rintro rfl
          simp at hk
        simp [this]
      · simp [h]

/-- Of two entries with one key the later stays. -/
def ofList (l : List (κ × ν)) : SortedMap κ ν := l.foldl (fun m e => m.insert e.1 e.2) ∅

end SortedMap

end ReplicaRing
