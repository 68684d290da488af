import ReplicaRing.Proofs.EngineStates
import ReplicaRing.Proofs.Paging
import ReplicaRing.Proofs.RangeInclusion

/-!
One page of a range query. What a page leaves over is a range again: it holds the live entries that
the page does not, and whoever is responsible for the range is responsible for it too. So an engine
that executes a range query without a limit answers with a page that is the last one, or that makes
less of what is left, `Engine.execute_range`.
-/

namespace ReplicaRing

/-! ## Live entries -/

/-- An item as clients see it, unless it is a tombstone. -/
def StoreItem.entry? (i : StoreItem) : Option (Key × Bytes) := i.value.map fun v => (i.key, v)

namespace Store

/-- The live entries of a range, in the order of their keys. -/
def live (s : Store) (range : KeyRange) : List (Key × Bytes) :=
  (s.matching range .skipTombstones).filterMap StoreItem.entry?

variable {s : Store} {range : KeyRange}

lemma mem_matching_live {i : StoreItem} :
    i ∈ s.matching range .skipTombstones ↔
      s.entries.get? i.key = some i.value ∧ range.contains i.key = true ∧
        i.value.isSome = true := by
  rw [mem_matching]
  simp [Matches, ReadFilter.accepts, StoreItem.isTombstone, Option.isSome_iff_ne_none]

/-- The live entries are the live values at the keys of the range. -/
lemma mem_live {k : Key} {v : Bytes} :
    (k, v) ∈ s.live range ↔ s.value? k = some v ∧ range.contains k = true := by
  have hvalue : s.value? k = some v ↔ s.entries.get? k = some (some v) := by
    unfold value?
    rw [Option.join_eq_some_iff]
  unfold live StoreItem.entry?
  rw [hvalue, List.mem_filterMap]
  constructor
  · rintro ⟨i, hi, hentry⟩
    obtain ⟨hget, hin, -⟩ := mem_matching_live.1 hi
    obtain ⟨w, hw, heq⟩ := Option.map_eq_some_iff.1 hentry
    obtain ⟨rfl, rfl⟩ := Prod.mk.inj heq
    rw [hw] at hget
    exact ⟨hget, hin⟩
  · rintro ⟨hget, hin⟩
    exact ⟨⟨k, some v⟩, mem_matching_live.2 ⟨hget, hin, rfl⟩, rfl⟩

lemma ascending_live (s : Store) (range : KeyRange) :
    (s.live range).Pairwise fun x y => compare x.1 y.1 = .lt := by
  refine List.Pairwise.filterMap _ ?_ (ascending_matching (s := s) (r := range))
  intro i j hij x hx y hy
  obtain ⟨_, -, rfl⟩ := Option.map_eq_some_iff.1 hx
  obtain ⟨_, -, rfl⟩ := Option.map_eq_some_iff.1 hy
  exact hij

/-- The items of a page are the first of the live entries, and there is more exactly if others are
left over. -/
lemma live_page (s : Store) (range : KeyRange) (limit : ScanLimit) {page : ScanPage}
    (hpage : page = s.page range limit .skipTombstones) :
    ∃ rest, s.matching range .skipTombstones = page.items ++ rest ∧
      s.live range = page.items.filterMap StoreItem.entry? ++ rest.filterMap StoreItem.entry? ∧
      (page.more = true ↔ rest ≠ []) := by
  obtain ⟨rest, hsplit, hmore⟩ := limit.take_append 0 0 (s.matching range .skipTombstones)
  rw [Store.page_eq] at hpage
  rw [← hpage] at hsplit hmore
  refine ⟨rest, hsplit, ?_, hmore⟩
  unfold live
  rw [hsplit, List.filterMap_append]

/-- Items of a page and what is left over by it: nothing, or a part of the range that has the live
entries which the page does not hold. -/
inductive PageOf (s : Store) (range : KeyRange) (items : List (Key × Bytes)) :
    Option KeyRange → Prop
  | last : s.live range = items → s.PageOf range items none
  | more (rest : KeyRange) : items ≠ [] → s.live range = items ++ s.live rest →
      (∀ r : KeyRange, r.covers range = true → r.covers rest = true) →
      s.PageOf range items (some rest)

end Store

/-! ## Executing a range query -/

namespace Engine

variable {e : Engine}

/-- A range query without a limit reads one page and says what remains above its last key. -/
lemma rangeQuery_uncapped (hscan : e.store.refused.contains .scan = false) (range : KeyRange)
    {page : ScanPage} (hpage : page = e.store.page range
      ⟨some e.config.pageItems, some e.config.pageBytes⟩ .skipTombstones) :
    e.rangeQuery range none =
      .ok (.range (page.items.filterMap StoreItem.entry?)
        (if page.more then page.lastKey?.map range.after else none)) := by
  unfold rangeQuery Store.scan Store.guard
  simp only [hscan, Bool.false_eq_true, if_false, ← hpage, bind, Except.bind, pure, Except.pure]
  cases page.more with
  | false => rfl
  | true =>
    cases page.lastKey? with
    | none => rfl
    | some k => rfl

/-- A range query without a limit reads a page. -/
theorem rangeQuery_page (hscan : e.store.refused.contains .scan = false)
    (hitems : 1 ≤ e.config.pageItems) (range : KeyRange) :
    ∃ items remaining, e.rangeQuery range none = .ok (.range items remaining) ∧
      e.store.PageOf range items remaining := by
  obtain ⟨page, hpage⟩ : ∃ page, page = e.store.page range
    ⟨some e.config.pageItems, some e.config.pageBytes⟩ .skipTombstones := ⟨_, rfl⟩
  obtain ⟨rest, hsplit, hlive, hmore⟩ := e.store.live_page range _ hpage
  refine ⟨_, _, rangeQuery_uncapped hscan range hpage, ?_⟩
  by_cases hleft : page.more = true
  · -- something matches, so the page holds an item, and with that a last key
    have hnonempty : page.items ≠ [] := by
      rw [hpage, Store.page_eq]
      refine ScanLimit.take_ne_nil (by simpa using Nat.pos_iff_ne_zero.1 hitems) ?_
      rw [hsplit]
      exact List.append_ne_nil_of_right_ne_nil _ (hmore.1 hleft)
    obtain ⟨last, hlast⟩ : ∃ last, page.items.getLast? = some last :=
      Option.ne_none_iff_exists'.1 (by rwa [ne_eq, List.getLast?_eq_none_iff])
    have hkey : page.items.getLast?.map StoreItem.key = some last.key := by
      rw [hlast]
      rfl
    have hin : last ∈ e.store.matching range .skipTombstones := by
      rw [hsplit]
      exact List.mem_append_left _ (List.mem_of_getLast? hlast)
    obtain ⟨-, -, hvalue⟩ := Store.mem_matching_live.1 hin
    obtain ⟨v, hv⟩ := Option.isSome_iff_exists.1 hvalue
    have hrest : (if page.more then page.lastKey?.map range.after else none) =
        some (range.after last.key) := by
      unfold ScanPage.lastKey?
      rw [if_pos hleft, hkey]
      rfl
    rw [hrest]
    refine .more _ (List.ne_nil_of_mem (a := (last.key, v)) ?_) ?_ fun r hr =>
      KeyRange.covers_after hr last.key
    · exact List.mem_filterMap.2 ⟨last, List.mem_of_getLast? hlast, by
        unfold StoreItem.entry?
        rw [hv]
        rfl⟩
    · have hafter : e.store.matching (range.after last.key) .skipTombstones = rest :=
        Store.matching_after_page hsplit hkey
      rw [hlive]
      unfold Store.live
      rw [hafter]
  · have hnone : rest = [] := by
      by_contra hne
      exact hleft (hmore.2 hne)
    rw [if_neg hleft]
    refine .last ?_
    rw [hlive, hnone, List.filterMap_nil, List.append_nil]

/-- A range query that is new to a responsible engine is answered with what it reads. -/
lemma execute_of_read {r : Reconfigure} {range : KeyRange} {limit : Option UInt64}
    {n : OperationId} {response : Response} (hread : e.rangeQuery range limit = .ok response)
    (hinstalled : e.installed = some r) (hcovers : r.responsibility.covers range = true)
    (hnew : e.executed.contains n = false) :
    (e.execute ⟨n, .rangeQuery range limit⟩).2 = ⟨n, response, .zero⟩ := by
  have hin : r.responsibility.admits (Operation.target ⟨n, .rangeQuery range limit⟩) = true :=
    hcovers
  have hdone : e.perform (.rangeQuery range limit) = .ok (e.store, response, .zero) := by
    rw [perform, hread]
    rfl
  have h := e.handled ⟨n, .rangeQuery range limit⟩
  generalize e.execute ⟨n, .rangeQuery range limit⟩ = result at h ⊢
  cases h with
  | duplicate hknown => simp [hnew] at hknown
  | noView _ hnone => simp [hinstalled] at hnone
  | outside _ hr hout =>
    obtain rfl := Option.some.inj (hinstalled.symm.trans hr)
    simp [hin] at hout
  | performed _ _ _ hperformed =>
    obtain ⟨-, rfl, rfl⟩ := by simpa using hdone.symm.trans hperformed
    rfl
  | failed _ _ _ hfault => simp [hdone] at hfault

/-- A range query without a limit that is new to a responsible engine is answered with a page. -/
theorem execute_range {r : Reconfigure} {range : KeyRange} {n : OperationId}
    (hscan : e.store.refused.contains .scan = false) (hitems : 1 ≤ e.config.pageItems)
    (hinstalled : e.installed = some r) (hcovers : r.responsibility.covers range = true)
    (hnew : e.executed.contains n = false) :
    ∃ items remaining,
      (e.execute ⟨n, .rangeQuery range none⟩).2 = ⟨n, .range items remaining, .zero⟩ ∧
      e.store.PageOf range items remaining := by
  obtain ⟨items, remaining, hread, hpage⟩ := rangeQuery_page hscan hitems range
  exact ⟨items, remaining, execute_of_read hread hinstalled hcovers hnew, hpage⟩

end Engine

end ReplicaRing
