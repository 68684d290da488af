import Mathlib.Algebra.GroupWithZero.Nat
import ReplicaRing.Proofs.RangeInclusion
import ReplicaRing.Store.Scan

/-!
Reading a range page by page. A page is the front part of the matching entries, it says that there
is more exactly if something is left over, and what is left over is what matches above the last
key of the page. So the pages of a range, each read above the one before, put together its
entries in key order, none twice and none left out.
-/

namespace ReplicaRing

/-! ## Lists in key order -/

/-- Items in strictly ascending key order. -/
def Ascending (l : List StoreItem) : Prop := l.Pairwise fun i j => compare i.key j.key = .lt

/-- In the order of their keys, nothing comes both before and after. -/
lemma not_mem_front {α : Type} {key : α → Key} {front rest : List α}
    (h : (front ++ rest).Pairwise fun x y => compare (key x) (key y) = .lt) {x : α}
    (hx : x ∈ rest) : x ∉ front := by
  intro hfront
  have hlt := (List.pairwise_append.1 h).2.2 x hfront x hx
  rw [Std.compare_self] at hlt
  cases hlt

namespace Ascending

variable {l front rest : List StoreItem}

lemma append (h : Ascending (front ++ rest)) :
    Ascending front ∧ Ascending rest ∧ ∀ i ∈ front, ∀ j ∈ rest, compare i.key j.key = .lt :=
  List.pairwise_append.1 h

/-- Every item of a front part lies at or below its last key. -/
lemma isLE_last (h : Ascending front) {k : Key}
    (hk : front.getLast?.map StoreItem.key = some k) {i : StoreItem} (hi : i ∈ front) :
    (compare i.key k).isLE = true := by
  obtain ⟨last, hlast, rfl⟩ := Option.map_eq_some_iff.1 hk
  obtain ⟨init, rfl⟩ := List.getLast?_eq_some_iff.1 hlast
  rcases List.mem_append.1 hi with hi | hi
  · simp [(append h).2.2 i hi last (by simp)]
  · simp [List.mem_singleton.1 hi]

/-- What lies above the last key of a front part is the rest. -/
lemma filter_above (h : Ascending (front ++ rest)) {k : Key}
    (hk : front.getLast?.map StoreItem.key = some k) :
    (front ++ rest).filter (fun i => (compare k i.key).isLT) = rest := by
  obtain ⟨hfront, -, hcross⟩ := append h
  have hnone : front.filter (fun i => (compare k i.key).isLT) = [] := by
    rw [List.filter_eq_nil_iff]
    intro i hi hlt
    have hle := isLE_last hfront hk hi
    rw [Ordering.isLT_iff_eq_lt] at hlt
    exact Std.OrientedCmp.not_isLE_of_lt hlt hle
  have hall : rest.filter (fun i => (compare k i.key).isLT) = rest := by
    rw [List.filter_eq_self]
    intro j hj
    obtain ⟨last, hlast, rfl⟩ := Option.map_eq_some_iff.1 hk
    rw [hcross last (List.mem_of_getLast? hlast) j hj]
    rfl
  rw [List.filter_append, hnone, hall, List.nil_append]

end Ascending

/-! ## Sizes -/

namespace StoreItem

/-- The size of some items together. -/
def totalSize (items : List StoreItem) : Nat := (items.map size).sum

@[simp] lemma totalSize_cons (i : StoreItem) (items : List StoreItem) :
    totalSize (i :: items) = i.size + totalSize items := by
  unfold totalSize
  rw [List.map_cons, List.sum_cons]

@[simp] lemma totalSize_append (items more : List StoreItem) :
    totalSize (items ++ more) = totalSize items + totalSize more := by
  unfold totalSize
  rw [List.map_append, List.sum_append]

end StoreItem

/-- A page has a last key exactly if it holds something. -/
lemma ScanPage.exists_lastKey_iff {p : ScanPage} : (∃ k, p.lastKey? = some k) ↔ p.items ≠ [] := by
  rw [← Option.ne_none_iff_exists']
  unfold lastKey?
  simp

/-! ## A page is a front part -/

namespace ScanLimit

/-- The items of a page are the first of those offered, and there is more exactly if not all of
them fit. -/
lemma take_append (limit : ScanLimit) (count bytes : Nat) (l : List StoreItem) :
    ∃ rest, l = (limit.take count bytes l).items ++ rest ∧
      ((limit.take count bytes l).more = true ↔ rest ≠ []) := by
  induction l generalizing count bytes with
  | nil => exact ⟨[], rfl, by simp [take]⟩
  | cons i l ih =>
    unfold take
    by_cases hfull : limit.full count bytes i = true
    · rw [if_pos hfull]
      exact ⟨i :: l, rfl, by simp⟩
    · rw [if_neg hfull]
      obtain ⟨rest, hl, hmore⟩ := ih (count + 1) (bytes + i.size)
      exact ⟨rest, by rw [List.cons_append, ← hl], hmore⟩

/-- The sizes of the items that are taken are added to those that were there. -/
lemma take_bytes (limit : ScanLimit) (count bytes : Nat) (l : List StoreItem) :
    (limit.take count bytes l).bytes =
      bytes + StoreItem.totalSize (limit.take count bytes l).items := by
  induction l generalizing count bytes with
  | nil => rfl
  | cons i l ih =>
    unfold take
    by_cases hfull : limit.full count bytes i = true
    · rw [if_pos hfull]
      rfl
    · rw [if_neg hfull]
      show (limit.take (count + 1) (bytes + i.size) l).bytes = _
      rw [ih, StoreItem.totalSize_cons, Nat.add_assoc]

/-- A limit that allows items lets the first one in, whatever its size. -/
lemma take_ne_nil {limit : ScanLimit} (h : limit.maxItems ≠ some 0) {l : List StoreItem}
    (hl : l ≠ []) : (limit.take 0 0 l).items ≠ [] := by
  cases l with
  | nil => exact absurd rfl hl
  | cons i l =>
    have hroom : limit.full 0 0 i = false := by
      unfold full
      cases hmax : limit.maxItems with
      | none => simp
      | some n =>
        have hn : n ≠ 0 := fun hn => h (by rw [hmax, hn])
        simp [hn]
    unfold take
    simp [hroom]

end ScanLimit

/-! ## What matches a range -/

namespace Store

variable {s : Store} {r : KeyRange} {filter : ReadFilter}

lemma mem_items {i : StoreItem} : i ∈ s.items ↔ s.entries.get? i.key = some i.value := by
  rw [SortedMap.get?_eq_some_iff]
  unfold items
  rw [List.mem_map]
  constructor
  · rintro ⟨e, he, rfl⟩
    exact he
  · intro h
    exact ⟨(i.key, i.value), h, rfl⟩

lemma ascending_items (s : Store) : Ascending s.items := List.pairwise_map.2 s.entries.ascending

lemma ascending_matching : Ascending (s.matching r filter) :=
  s.ascending_items.sublist List.filter_sublist

/-- An entry of a store lies in a range and passes a filter. -/
def Matches (s : Store) (r : KeyRange) (filter : ReadFilter) (i : StoreItem) : Prop :=
  s.entries.get? i.key = some i.value ∧ r.contains i.key = true ∧ filter.accepts i = true

lemma mem_matching {i : StoreItem} : i ∈ s.matching r filter ↔ s.Matches r filter i := by
  unfold matching Matches
  rw [List.mem_filter, mem_items, Bool.and_eq_true]

/-- Without a filter, what matches a range are the entries at its keys. -/
lemma mem_matching_all {i : StoreItem} :
    i ∈ s.matching r .all ↔ s.entries.get? i.key = some i.value ∧ r.contains i.key = true := by
  rw [mem_matching]
  exact and_congr_right fun _ => and_iff_left rfl

/-- Nothing matches a range that is found to be empty. -/
lemma matching_of_isEmpty (h : r.isEmpty = true) (s : Store) (filter : ReadFilter) :
    s.matching r filter = [] := by
  unfold matching
  rw [List.filter_eq_nil_iff]
  intro i _
  rw [(KeyRange.isEmpty_iff.1 h).1 i.key]
  exact Bool.false_ne_true

/-- Turning back at a range that is found to be empty makes no difference to the page. -/
theorem page_eq (s : Store) (r : KeyRange) (limit : ScanLimit) (filter : ReadFilter) :
    s.page r limit filter = limit.take 0 0 (s.matching r filter) := by
  unfold page
  by_cases h : r.isEmpty = true
  · rw [if_pos h, matching_of_isEmpty h]
    rfl
  · rw [if_neg h]

/-- The bytes that were counted for a page are the sizes of its items together. -/
lemma page_bytes (s : Store) (r : KeyRange) (limit : ScanLimit) (filter : ReadFilter) :
    (s.page r limit filter).bytes = StoreItem.totalSize (s.page r limit filter).items := by
  rw [page_eq, ScanLimit.take_bytes, Nat.zero_add]

section

variable {limit : ScanLimit} {page : ScanPage}

/-- A scan that is let through reads the page. -/
lemma page_of_scan (h : s.scan r limit filter = .ok page) : s.page r limit filter = page := by
  unfold scan guard at h
  split at h
  · cases h
  · cases h
    rfl

lemma take_of_scan (h : s.scan r limit filter = .ok page) :
    page = limit.take 0 0 (s.matching r filter) :=
  (page_of_scan h).symm.trans (s.page_eq r limit filter)

lemma bytes_of_scan (h : s.scan r limit filter = .ok page) :
    page.bytes = StoreItem.totalSize page.items := by
  rw [← page_of_scan h, page_bytes]

end

/-- What matches a range depends on the entries alone. -/
lemma matching_congr {s' : Store} (h : s.entries = s'.entries) (r : KeyRange)
    (filter : ReadFilter) : s.matching r filter = s'.matching r filter := by
  unfold matching items
  rw [h]

/-- Above a key, what matches is what matched before and lies above the key. -/
lemma matching_after (k : Key) :
    s.matching (r.after k) filter =
      (s.matching r filter).filter fun i => (compare k i.key).isLT := by
  unfold matching
  rw [List.filter_filter]
  congr 1
  funext i
  have h : (r.after k).contains i.key = (r.contains i.key && (compare k i.key).isLT) := by
    rw [Bool.eq_iff_iff, KeyRange.contains_after, Bool.and_eq_true, Ordering.isLT_iff_eq_lt]
  rw [h, Bool.and_comm (r.contains i.key), Bool.and_assoc]

/-- After a page, what matches above its last key is what the page left over. -/
theorem matching_after_page {front rest : List StoreItem} {k : Key}
    (h : s.matching r filter = front ++ rest)
    (hk : front.getLast?.map StoreItem.key = some k) : s.matching (r.after k) filter = rest := by
  have hasc : Ascending (front ++ rest) := h ▸ ascending_matching
  rw [matching_after, h, hasc.filter_above hk]

/-! ## Page after page -/

variable {limit : ScanLimit} {page : ScanPage}

lemma mem_pages (h : s.page r limit filter = page) (n : Nat) :
    page ∈ s.pages limit filter (n + 1) r := by
  unfold pages
  rw [h]
  simp only
  split
  · exact List.mem_cons_self
  · exact List.mem_cons_self

/-- Where a page leaves nothing over, it is the last one. -/
lemma pages_of_last (h : s.page r limit filter = page) (hmore : page.more = false) (n : Nat) :
    s.pages limit filter (n + 1) r = [page] := by
  rw [pages, h]
  simp only [hmore]

/-- Where a page leaves something over, the next one is read above its last key. -/
lemma pages_of_more (h : s.page r limit filter = page) (hmore : page.more = true) {k : Key}
    (hk : page.lastKey? = some k) (n : Nat) :
    s.pages limit filter (n + 1) r = page :: s.pages limit filter n (r.after k) := by
  rw [pages, h]
  simp only [hmore, hk]

end Store

end ReplicaRing
