import ReplicaRing.Proofs.RangePages
import ReplicaRing.Proofs.Tombstones

/-!
What an answer to a range query leaves out. Its items are the first of the live entries. A query
without a limit is told where the others are, in the range that remains. A query with a limit never
is: it either gets as many items as it asked for, or all there are, or it is cut short by the size
of a page without a word, and that is so exactly if the items it asked for do not fit in a page,
`Engine.range_accounted_iff`.
-/

namespace ReplicaRing

/-! ## What is left out -/

namespace ScanLimit

/-- A page of some items at most ends early exactly if so many do not fit in its bytes. -/
lemma take_full_iff (m : Nat) (maxBytes : Option Nat) (l : List StoreItem) :
    (((⟨some m, maxBytes⟩ : ScanLimit).take 0 0 l).items.length = m ∨
        ((⟨some m, maxBytes⟩ : ScanLimit).take 0 0 l).more = false) ↔
      ScanLimit.Fits ⟨none, maxBytes⟩ (l.take m) := by
  -- the page holds the first `n` items: they fit, and one more would not
  obtain ⟨n, hn, htake, hin, hout⟩ := take_eq ⟨some m, maxBytes⟩ [] l
  have hpage : (⟨some m, maxBytes⟩ : ScanLimit).take 0 0 l =
      ⟨l.take n, StoreItem.totalSize (l.take n), n < l.length⟩ := htake
  have hcount : n ≤ m := by
    rcases Nat.eq_zero_or_pos n with hzero | hpos
    · omega
    · simpa [hn] using (hin hpos).1 m rfl
  have hfits : ScanLimit.Fits ⟨none, maxBytes⟩ (l.take n) := by
    rcases Nat.eq_zero_or_pos n with hzero | hpos
    · rw [hzero]
      exact fits_nil _
    · exact ⟨fun _ h => (by cases h), (hin hpos).2⟩
  rw [hpage]
  simp only [List.length_take, Nat.min_eq_left hn, decide_eq_false_iff_not, Nat.not_lt]
  constructor
  · rintro (hm | hall)
    · rwa [← hm]
    · rwa [List.take_of_length_le (hall.trans hcount), ← List.take_of_length_le hall]
  · intro hm
    by_contra hnot
    obtain ⟨hless, hasked⟩ : n < l.length ∧ n < m := by omega
    -- one item more than the page would fit, and it was asked for
    have hnext : ScanLimit.Fits ⟨none, maxBytes⟩ (l.take (n + 1)) := hm.take_mono hasked
    refine hout hless ⟨?_, hnext.2⟩
    intro k hk
    obtain rfl := Option.some.inj hk
    exact (List.length_take_le _ _).trans hasked

end ScanLimit

namespace Store

variable {s : Store} {range : KeyRange} {items : List (Key × Bytes)} {remaining : Option KeyRange}

/-- The live entries of a range that an answer leaves out are those of the range that remains. -/
def Accounted (s : Store) (range : KeyRange) (items : List (Key × Bytes))
    (remaining : Option KeyRange) : Prop :=
  ∀ x, (x ∈ s.live range ∧ x ∉ items) ↔ ∃ rest, remaining = some rest ∧ x ∈ s.live rest

/-- No live entry of a range is there twice. -/
lemma not_mem_of_live {front rest : List (Key × Bytes)} (h : s.live range = front ++ rest)
    {x : Key × Bytes} (hx : x ∈ rest) : x ∉ front :=
  not_mem_front (h ▸ s.ascending_live range) hx

/-- Where nothing remains, only an answer with all live entries accounts for them. -/
lemma accounted_none {rest : List (Key × Bytes)} (h : s.live range = items ++ rest) :
    s.Accounted range items none ↔ rest = [] := by
  constructor
  · intro haccounted
    by_contra hne
    obtain ⟨x, hx⟩ := List.exists_mem_of_ne_nil rest hne
    have hlive : x ∈ s.live range := h ▸ List.mem_append_right _ hx
    obtain ⟨r, hr, -⟩ := (haccounted x).1 ⟨hlive, not_mem_of_live h hx⟩
    cases hr
  · rintro rfl x
    rw [h, List.append_nil]
    constructor
    · rintro ⟨hin, hout⟩
      exact absurd hin hout
    · rintro ⟨r, hr, -⟩
      cases hr

/-- A page of a range accounts for the entries that it does not hold. -/
lemma PageOf.accounted (h : s.PageOf range items remaining) :
    items <+: s.live range ∧ s.Accounted range items remaining := by
  cases h with
  | last hlive =>
    rw [hlive]
    exact ⟨List.prefix_rfl, (accounted_none (hlive.trans (List.append_nil _).symm)).2 rfl⟩
  | more rest hne hlive hcovers =>
    refine ⟨⟨_, hlive.symm⟩, fun x => ?_⟩
    constructor
    · rintro ⟨hin, hout⟩
      rw [hlive] at hin
      exact ⟨rest, rfl, (List.mem_append.1 hin).resolve_left hout⟩
    · rintro ⟨r, hr, hin⟩
      obtain rfl := Option.some.inj hr
      exact ⟨hlive ▸ List.mem_append_right _ hin, not_mem_of_live hlive hin⟩

/-- Every live item is an entry for clients. -/
lemma length_entries {l : List StoreItem} (h : l ⊆ s.matching range .skipTombstones) :
    (l.filterMap StoreItem.entry?).length = l.length := by
  rw [List.filterMap_length_eq_length]
  intro i hi
  unfold StoreItem.entry?
  rw [Option.isSome_map]
  exact (mem_matching_live.1 (h hi)).2.2

end Store

/-! ## Answers -/

namespace Engine

variable {e : Engine} {range : KeyRange} {limit : Option UInt64}

/-- A range query with a limit reads one page and says nothing of the rest. -/
lemma rangeQuery_capped (hscan : e.store.refused.contains .scan = false) (range : KeyRange)
    (l : UInt64) :
    e.rangeQuery range (some l) =
      .ok (.range ((e.store.page range ⟨some l.toNat, some e.config.pageBytes⟩
        .skipTombstones).items.filterMap StoreItem.entry?) none) := by
  unfold rangeQuery Store.scan Store.guard
  simp only [hscan, Bool.false_eq_true, if_false, bind, Except.bind, pure, Except.pure]
  rfl

/-- So what it leaves out is lost exactly if the items that were asked for do not fit in a page. -/
lemma rangeQuery_capped_iff (hscan : e.store.refused.contains .scan = false) (range : KeyRange)
    (l : UInt64) :
    ∃ items, e.rangeQuery range (some l) = .ok (.range items none) ∧
      items <+: e.store.live range ∧
      (items.length = l.toNat ∨ e.store.Accounted range items none ↔
        ScanLimit.Fits ⟨none, some e.config.pageBytes⟩
          ((e.store.matching range .skipTombstones).take l.toNat)) := by
  obtain ⟨page, hpage⟩ : ∃ page, page = e.store.page range
    ⟨some l.toNat, some e.config.pageBytes⟩ .skipTombstones := ⟨_, rfl⟩
  have hread := rangeQuery_capped hscan range l
  rw [← hpage] at hread
  obtain ⟨rest, hsplit, hlive, hmore⟩ := e.store.live_page range _ hpage
  -- clients see an entry for each item, so counts and emptiness carry over
  have hitems : (page.items.filterMap StoreItem.entry?).length = page.items.length :=
    Store.length_entries (hsplit ▸ List.subset_append_left _ _)
  have hrest : (rest.filterMap StoreItem.entry?).length = rest.length :=
    Store.length_entries (hsplit ▸ List.subset_append_right _ _)
  have hleft : rest.filterMap StoreItem.entry? = [] ↔ page.more = false := by
    rw [← List.length_eq_zero_iff, hrest, List.length_eq_zero_iff, ← Bool.not_eq_true, hmore,
      not_not]
  refine ⟨_, hread, ⟨_, hlive.symm⟩, ?_⟩
  rw [hitems, Store.accounted_none hlive, hleft, hpage, Store.page_eq,
    ScanLimit.take_full_iff]

/-- A range query that is new to a responsible engine is answered with the first of the live
entries. It gets as many as it asked for, or is told where the others are, exactly if it has no
limit or what it asked for fits in a page. -/
theorem range_accounted_iff {r : Reconfigure} {n : OperationId}
    (hscan : e.store.refused.contains .scan = false) (hitems : 1 ≤ e.config.pageItems)
    (hinstalled : e.installed = some r) (hcovers : r.responsibility.covers range = true)
    (hnew : e.executed.contains n = false) :
    ∃ items remaining,
      (e.execute ⟨n, .rangeQuery range limit⟩).2 = ⟨n, .range items remaining, .zero⟩ ∧
      items <+: e.store.live range ∧
      ((limit.map UInt64.toNat = some items.length ∨ e.store.Accounted range items remaining) ↔
        ∀ l ∈ limit, ScanLimit.Fits ⟨none, some e.config.pageBytes⟩
          ((e.store.matching range .skipTombstones).take l.toNat)) := by
  cases limit with
  | none =>
    obtain ⟨items, remaining, hanswer, hpage⟩ :=
      execute_range hscan hitems hinstalled hcovers hnew
    obtain ⟨hfront, haccounted⟩ := hpage.accounted
    refine ⟨items, remaining, hanswer, hfront, ?_⟩
    exact iff_of_true (.inr haccounted) fun l hl => (by cases hl)
  | some l =>
    obtain ⟨items, hread, hfront, hiff⟩ := rangeQuery_capped_iff hscan range l
    refine ⟨items, none, execute_of_read hread hinstalled hcovers hnew, hfront, ?_⟩
    rw [Option.map_some, Option.some_inj, eq_comm (a := l.toNat), hiff]
    simp

namespace NarrowAnswers

def a : NodeId := ⟨"a", 1, none⟩

/-- A view of one replica, which is responsible for all keys. -/
def solo : Reconfigure := ⟨.ofList 1 [a], 1, 0, .full⟩

/-- The entries that fit in a page. -/
def two : List (Key × Bytes) := [([0x61], [0x31]), ([0x62], [0x32])]

/-- A replica with one entry more. -/
def narrow : Engine :=
  ((start a { pageBytes := 4 } (.ofList (two ++ [([0x63], [0x33])]))).bootstrap solo).1

end NarrowAnswers

open NarrowAnswers in
/-- A query for as many entries as fit in a page gets them. -/
theorem range_accounted_iff_two :
    narrow.store.refused.contains .scan = false ∧ 1 ≤ narrow.config.pageItems ∧
      narrow.installed = some solo ∧ solo.responsibility.covers .full = true ∧
      narrow.executed.contains 7 = false ∧
      ∃ items remaining,
        (narrow.execute ⟨7, .rangeQuery .full (some 2)⟩).2 = ⟨7, .range items remaining, .zero⟩ ∧
        items <+: narrow.store.live .full ∧
        (some 2 = some items.length ∨ narrow.store.Accounted .full items remaining) := by
  have hscan : narrow.store.refused.contains .scan = false := by decide
  have hitems : 1 ≤ narrow.config.pageItems := by decide
  have hinstalled : narrow.installed = some solo := by decide
  have hcovers : solo.responsibility.covers .full = true := by decide
  have hnew : narrow.executed.contains 7 = false := by decide
  obtain ⟨items, remaining, hanswer, hfront, hiff⟩ :=
    @range_accounted_iff narrow .full (some 2) solo 7 hscan hitems hinstalled hcovers hnew
  refine ⟨hscan, hitems, hinstalled, hcovers, hnew, items, remaining, hanswer, hfront, ?_⟩
  refine hiff.2 fun l hl => ?_
  obtain rfl := Option.some.inj hl
  decide

open NarrowAnswers in
/-- Whoever asks for three entries gets two, and no word of the third. -/
theorem range_cut_short :
    1 ≤ narrow.config.pageItems ∧ 1 ≤ narrow.config.pageBytes ∧
      narrow.installed = some solo ∧ solo.responsibility.covers .full = true ∧
      (narrow.execute ⟨7, .rangeQuery .full (some 3)⟩).2 = ⟨7, .range two none, .zero⟩ ∧
      narrow.store.live .full = two ++ [([0x63], [0x33])] ∧
      ¬ (some 3 = some two.length ∨ narrow.store.Accounted .full two none) := by
  have hlive : narrow.store.live .full = two ++ [([0x63], [0x33])] := by decide
  refine ⟨by decide, by decide, by decide, by decide, by decide, hlive, ?_⟩
  rintro (hcount | haccounted)
  · cases hcount
  · cases (Store.accounted_none hlive).1 haccounted

end Engine

end ReplicaRing
