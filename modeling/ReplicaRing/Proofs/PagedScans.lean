import ReplicaRing.Proofs.Tombstones

/-!
A range read to its end. Whoever scans a range and goes on above the last key of each page, for as
long as the page says that there is more, comes to an end: a page that is not the last holds an
item, so less is left after it. The course is an inductive predicate, `Store.PagedScan`, and by
induction over it the pages put together hold what matches the range, each entry once and in the
order of the keys, `Store.paged_scan_once`. What a single page promises is `Store.WellCut`. With
enough fuel, `Store.pages` computes the pages of such a course, `Store.PagedScan.pages_eq`.
-/

namespace ReplicaRing

namespace Store

/-- Some entries of a range read page by page: the ranges that were scanned and the pages that came
back. -/
inductive PagedScan (s : Store) (limit : ScanLimit) (filter : ReadFilter) :
    KeyRange → List (KeyRange × ScanPage) → Prop
  | last {r : KeyRange} {page : ScanPage} :
      s.scan r limit filter = .ok page → page.more = false → s.PagedScan limit filter r [(r, page)]
  | next {r : KeyRange} {page : ScanPage} {k : Key} {scans : List (KeyRange × ScanPage)} :
      s.scan r limit filter = .ok page → page.more = true → page.lastKey? = some k →
      s.PagedScan limit filter (r.after k) scans →
      s.PagedScan limit filter r ((r, page) :: scans)

/-- The items of some pages, one page after the other. -/
def scannedItems (scans : List (KeyRange × ScanPage)) : List StoreItem :=
  scans.flatMap fun x => x.2.items

/-- A page of a range keeps to its limit and says what it left out. -/
structure WellCut (s : Store) (limit : ScanLimit) (filter : ReadFilter) (r : KeyRange)
    (page : ScanPage) : Prop where
  bytes : page.bytes = (page.items.map StoreItem.size).sum
  count : ∀ n, limit.maxItems = some n → page.items.length ≤ n
  /-- One item is never too large. -/
  size : ∀ n, limit.maxBytes = some n → n < page.bytes → page.items.length = 1
  more : page.more = true ↔ ∃ i, s.Matches r filter i ∧ i ∉ page.items

variable {s : Store} {limit : ScanLimit} {filter : ReadFilter} {r : KeyRange} {page : ScanPage}
  {scans : List (KeyRange × ScanPage)}

/-! ## One page -/

lemma scan_of_not_refused (h : s.refused.contains .scan = false) (r : KeyRange)
    (limit : ScanLimit) (filter : ReadFilter) :
    s.scan r limit filter = .ok (s.page r limit filter) := by
  unfold scan guard
  rw [h]
  rfl

/-- A page holds the first of the entries that match, and says whether it left any. -/
lemma matching_of_scan (h : s.scan r limit filter = .ok page) :
    ∃ rest, s.matching r filter = page.items ++ rest ∧ (page.more = true ↔ rest ≠ []) := by
  rw [take_of_scan h]
  exact limit.take_append 0 0 (s.matching r filter)

/-- A page that says that there is more leaves something over, and that is what matches above its
last key. -/
lemma matching_of_more (h : s.scan r limit filter = .ok page) (hmore : page.more = true) {k : Key}
    (hk : page.lastKey? = some k) :
    s.matching r filter = page.items ++ s.matching (r.after k) filter ∧
      s.matching (r.after k) filter ≠ [] := by
  obtain ⟨rest, hsplit, hleft⟩ := matching_of_scan h
  rw [matching_after_page hsplit hk]
  exact ⟨hsplit, hleft.1 hmore⟩

/-- A page that says that there is no more holds all that matches. -/
lemma matching_of_last (h : s.scan r limit filter = .ok page) (hmore : page.more = false) :
    s.matching r filter = page.items := by
  obtain ⟨rest, hsplit, hleft⟩ := matching_of_scan h
  have hnil : rest = [] := by
    by_contra hne
    rw [hleft.2 hne] at hmore
    cases hmore
  rw [hsplit, hnil, List.append_nil]

/-- The items of a page fit. -/
lemma fits_of_scan (h : s.scan r limit filter = .ok page) : limit.Fits page.items := by
  obtain ⟨n, -, htake, hfits, -⟩ := limit.take_eq [] (s.matching r filter)
  have hitems : page.items = (s.matching r filter).take n :=
    congrArg ScanPage.items ((take_of_scan h).trans htake)
  rw [hitems]
  cases n with
  | zero => exact limit.fits_nil
  | succ n => exact hfits n.succ_pos

/-- A page says that there is more exactly if it leaves out an entry that matches. -/
lemma more_iff_of_scan (h : s.scan r limit filter = .ok page) :
    page.more = true ↔ ∃ i, s.Matches r filter i ∧ i ∉ page.items := by
  obtain ⟨rest, hsplit, hleft⟩ := matching_of_scan h
  -- what is left over matches, and is not on the page as no key is there twice
  have hasc : Ascending (page.items ++ rest) := hsplit ▸ ascending_matching
  rw [hleft]
  constructor
  · intro hne
    obtain ⟨i, hi⟩ := List.exists_mem_of_ne_nil rest hne
    exact ⟨i, mem_matching.1 (hsplit ▸ List.mem_append_right _ hi), not_mem_front hasc hi⟩
  · rintro ⟨i, hi, hout⟩ hnil
    rw [← mem_matching, hsplit, hnil, List.append_nil] at hi
    exact hout hi

/-- Every page is cut as its limit asks for. -/
lemma wellCut_of_scan (h : s.scan r limit filter = .ok page) :
    s.WellCut limit filter r page where
  bytes := bytes_of_scan h
  count := (fits_of_scan h).1
  size := by
    intro n hn hlarge
    rw [bytes_of_scan h] at hlarge
    exact (fits_of_scan h).length_eq_one hn hlarge
  more := more_iff_of_scan h

/-! ## Page after page -/

/-- Reading a range comes to an end, as less and less of it is left. -/
lemma exists_pagedScan (hscan : s.refused.contains .scan = false)
    (hlimit : limit.maxItems ≠ some 0) (r : KeyRange) :
    ∃ scans, s.PagedScan limit filter r scans := by
  -- the induction is on how much matches what is left of the range
  induction hn : (s.matching r filter).length using Nat.strong_induction_on generalizing r with
  | h n ih =>
    have hpage := scan_of_not_refused hscan r limit filter
    cases hmore : (s.page r limit filter).more with
    | false => exact ⟨_, .last hpage hmore⟩
    | true =>
      obtain ⟨rest, hsplit, hleft⟩ := matching_of_scan hpage
      have hsome : (s.page r limit filter).items ≠ [] := by
        rw [page_eq]
        exact ScanLimit.take_ne_nil hlimit fun hnil =>
          hleft.1 hmore (List.append_eq_nil_iff.1 (hsplit.symm.trans hnil)).2
      obtain ⟨k, hk⟩ := ScanPage.exists_lastKey_iff.2 hsome
      have hless : (s.matching (r.after k) filter).length < n := by
        rw [← hn, (matching_of_more hpage hmore hk).1, List.length_append]
        have := List.length_pos_iff.2 hsome
        omega
      obtain ⟨scans, hscans⟩ := ih _ hless (r.after k) rfl
      exact ⟨_, .next hpage hmore hk hscans⟩

namespace PagedScan

/-- The pages put together are what matches the range. -/
lemma scannedItems_eq (h : s.PagedScan limit filter r scans) :
    scannedItems scans = s.matching r filter := by
  unfold scannedItems
  induction h with
  | last hpage hmore =>
    rw [matching_of_last hpage hmore, List.flatMap_singleton]
  | next hpage hmore hk _ ih =>
    rw [List.flatMap_cons, ih, (matching_of_more hpage hmore hk).1]

/-- There are no more pages than entries, but always one. -/
lemma length_le (h : s.PagedScan limit filter r scans) :
    scans.length ≤ max 1 (s.matching r filter).length := by
  induction h with
  | last hpage hmore => exact Nat.le_max_left _ _
  | next hpage hmore hk _ ih =>
    -- this page holds an entry, and another one is left for the pages after it
    obtain ⟨hsplit, hleft⟩ := matching_of_more hpage hmore hk
    have hitems := List.length_pos_iff.2 (ScanPage.exists_lastKey_iff.1 ⟨_, hk⟩)
    have hrest := List.length_pos_iff.2 hleft
    rw [hsplit, List.length_append, List.length_cons]
    omega

lemma wellCut (h : s.PagedScan limit filter r scans) :
    ∀ x ∈ scans, s.WellCut limit filter x.1 x.2 := by
  induction h with
  | last hpage hmore =>
    intro x hx
    rw [List.mem_singleton.1 hx]
    exact wellCut_of_scan hpage
  | next hpage hmore hk _ ih =>
    intro x hx
    rcases List.mem_cons.1 hx with rfl | hx
    · exact wellCut_of_scan hpage
    · exact ih x hx

/-- With fuel for every page, the pages of a range are the ones that a reader gets. -/
theorem pages_eq (h : s.PagedScan limit filter r scans) {fuel : Nat} (hfuel : scans.length ≤ fuel) :
    s.pages limit filter fuel r = scans.map Prod.snd := by
  induction h generalizing fuel with
  | last hpage hmore =>
    obtain ⟨fuel, rfl⟩ := Nat.exists_eq_add_of_le' hfuel
    exact pages_of_last (page_of_scan hpage) hmore fuel
  | next hpage hmore hk _ ih =>
    obtain ⟨fuel, rfl⟩ := Nat.exists_eq_add_of_le' (Nat.le_trans (Nat.le_add_left 1 _) hfuel)
    rw [pages_of_more (page_of_scan hpage) hmore hk, ih (Nat.le_of_succ_le_succ hfuel)]
    rfl

end PagedScan

/-- Reading a range page by page comes to an end, and however it went, the pages put together hold
each entry that matches once and in the order of the keys. There are at most as many pages as
entries, and one if there are none, and each page is cut as the limit asks for. -/
theorem paged_scan_once (hscan : s.refused.contains .scan = false)
    (hlimit : limit.maxItems ≠ some 0) (filter : ReadFilter) (range : KeyRange) :
    (∃ scans, s.PagedScan limit filter range scans) ∧
      ∀ scans, s.PagedScan limit filter range scans →
        Ascending (scannedItems scans) ∧
        (∀ i, i ∈ scannedItems scans ↔ s.Matches range filter i) ∧
        scans.length ≤ max 1 (scannedItems scans).length ∧
        ∀ x ∈ scans, s.WellCut limit filter x.1 x.2 := by
  refine ⟨exists_pagedScan hscan hlimit range, fun scans h => ?_⟩
  rw [h.scannedItems_eq]
  exact ⟨ascending_matching, fun i => mem_matching, h.length_le, h.wellCut⟩

namespace NarrowPages

/-- A store with a tombstone, and an entry that is larger than a page. -/
def shelf : Store := (ofList [([1], [9]), ([2], [9]), ([3], [9, 9, 9]), ([4], [9])]).write [2] none

def narrow : ScanLimit := ⟨some 2, some 3⟩

/-- Each entry needs a page of its own. -/
example : (shelf.pages narrow .skipTombstones 3 .full).map (fun p => (p.items.map (·.key), p.more)) =
    [([[1]], true), ([[3]], true), ([[4]], false)] := by
  decide

end NarrowPages

open NarrowPages in
/-- A tombstone between two pages and an entry that is too large do not hold up a reader. -/
theorem paged_scan_once_narrow :
    shelf.refused.contains .scan = false ∧ narrow.maxItems ≠ some 0 ∧
      ∃ scans, shelf.PagedScan narrow .skipTombstones .full scans ∧
        Ascending (scannedItems scans) ∧
        (∀ i, i ∈ scannedItems scans ↔ shelf.Matches .full .skipTombstones i) ∧
        scans.length ≤ max 1 (scannedItems scans).length ∧
        ∀ x ∈ scans, shelf.WellCut narrow .skipTombstones x.1 x.2 := by
  have hscan : shelf.refused.contains .scan = false := by decide
  have hlimit : narrow.maxItems ≠ some 0 := by decide
  obtain ⟨⟨scans, hscans⟩, hread⟩ := paged_scan_once hscan hlimit .skipTombstones .full
  exact ⟨hscan, hlimit, scans, hscans, hread scans hscans⟩

end Store

end ReplicaRing
