import Mathlib.Data.Nat.Find
import ReplicaRing.Proofs.MapContents
import ReplicaRing.Proofs.Paging

/-!
Tombstones and the clients of a store. What clients can see of a store is an ordered map, the live
entries, and each call does to it and answers from it what it would on a map in which deleting a
key removes it, `Store.serve_eq`. So a store answers any calls one after the other as such a map
does, `Store.serveAll_ofList`. The map says on its own terms what a size change and a page are: the
difference of the sizes before and after, and as many entries as fit.
-/

namespace ReplicaRing

/-! ## Calls -/

/-- What clients ask of a store. Their scans are for live entries. -/
inductive ClientCall where
  | get (key : Key)
  | put (key : Key) (value : Bytes)
  | delete (key : Key)
  | scan (range : KeyRange) (limit : ScanLimit)
  /-- The number and the size of the entries. -/
  | stats
  | count
  deriving DecidableEq

inductive ClientAnswer where
  | value (value : Option Bytes)
  | changed (delta : SizeDelta)
  | page (items : List StoreItem) (bytes : Nat) (more : Bool)
  | stats (keys bytes : Nat)
  | count (keys : Nat)
  deriving DecidableEq

namespace Store

def serve (s : Store) : ClientCall → Except Fault (Store × ClientAnswer)
  | .get k => (s.get k).map fun v => (s, .value v)
  | .put k v => (s.put k v).map fun (s, delta) => (s, .changed delta)
  | .delete k => (s.delete k).map fun (s, delta) => (s, .changed delta)
  | .scan r limit => (s.scan r limit .skipTombstones).map fun p => (s, .page p.items p.bytes p.more)
  | .stats => .ok (s, .stats s.liveCount s.liveBytes)
  | .count => .ok (s, .count s.liveCount)

/-- The answers to some calls, one after the other. -/
def serveAll (s : Store) : List ClientCall → Except Fault (List ClientAnswer)
  | [] => .ok []
  | c :: calls => do
    let (s, answer) ← s.serve c
    let answers ← s.serveAll calls
    return answer :: answers

end Store

/-! ## A map without tombstones -/

/-- Some items are no more, and no larger together, than a limit allows. One item is never too
large. -/
def ScanLimit.Fits (limit : ScanLimit) (items : List StoreItem) : Prop :=
  (∀ n ∈ limit.maxItems, items.length ≤ n) ∧
    ∀ n ∈ limit.maxBytes, items.length ≤ 1 ∨ StoreItem.totalSize items ≤ n

instance (limit : ScanLimit) (items : List StoreItem) : Decidable (limit.Fits items) :=
  inferInstanceAs (Decidable (_ ∧ _))

/-- An ordered map from keys to values. -/
abbrev LiveMap := SortedMap Key Bytes

namespace LiveMap

/-- The lengths of all keys and values together. -/
def bytes (m : LiveMap) : Nat := m.total fun k v => k.length + v.length

/-- How the size changes from one map to another. -/
def change (m m' : LiveMap) : SizeDelta :=
  ⟨Int64.ofInt (m'.bytes - m.bytes), Int64.ofInt (m'.size - m.size)⟩

/-- The entries of a range in key order. -/
def within (m : LiveMap) (r : KeyRange) : List StoreItem :=
  (m.entries.filter fun e => r.contains e.1).map fun e => ⟨e.1, some e.2⟩

/-- The first entries of a range, as many as fit, and whether there are more. -/
def page (m : LiveMap) (r : KeyRange) (limit : ScanLimit) : ClientAnswer :=
  let n := Nat.findGreatest (fun n => limit.Fits ((m.within r).take n)) (m.within r).length
  let items := (m.within r).take n
  .page items (StoreItem.totalSize items) (n < (m.within r).length)

def serve (m : LiveMap) : ClientCall → LiveMap × ClientAnswer
  | .get k => (m, .value (m.get? k))
  | .put k v => (m.insert k v, .changed (change m (m.insert k v)))
  | .delete k => (m.erase k, .changed (change m (m.erase k)))
  | .scan r limit => (m, page m r limit)
  | .stats => (m, .stats m.size (bytes m))
  | .count => (m, .count m.size)

def serveAll (m : LiveMap) : List ClientCall → List ClientAnswer
  | [] => []
  | c :: calls => (serve m c).2 :: serveAll (serve m c).1 calls

end LiveMap

/-! ## The entries that have a value -/

namespace SortedMap

variable {κ ν : Type} [Ord κ]

/-- Drops the keys without a value. -/
def present (m : SortedMap κ (Option ν)) : SortedMap κ ν where
  entries := m.entries.filterMap fun e => e.2.map fun v => (e.1, v)
  ascending := by
    refine m.ascending.filterMap _ fun a a' hlt b hb b' hb' => ?_
    obtain ⟨v, -, rfl⟩ := Option.map_eq_some_iff.1 hb
    obtain ⟨v', -, rfl⟩ := Option.map_eq_some_iff.1 hb'
    exact hlt

variable [Std.LawfulEqOrd κ]

lemma get?_present (m : SortedMap κ (Option ν)) (k : κ) : m.present.get? k = (m.get? k).join := by
  ext v
  rw [get?_eq_some_iff, Option.join_eq_some_iff, get?_eq_some_iff]
  unfold present
  rw [List.mem_filterMap]
  constructor
  · rintro ⟨e, he, hv⟩
    obtain ⟨w, hw, heq⟩ := Option.map_eq_some_iff.1 hv
    cases heq
    rwa [← hw]
  · intro h
    exact ⟨(k, some v), h, rfl⟩

variable [Std.TransOrd κ] [DecidableEq κ]

lemma present_insert_some (m : SortedMap κ (Option ν)) (k : κ) (v : ν) :
    (m.insert k (some v)).present = m.present.insert k v := by
  refine ext_get? fun k' => ?_
  rw [get?_present, get?_insert, get?_insert, get?_present]
  split
  · rfl
  · rfl

lemma present_insert_none (m : SortedMap κ (Option ν)) (k : κ) :
    (m.insert k none).present = m.present.erase k := by
  refine ext_get? fun k' => ?_
  rw [get?_present, get?_insert, get?_erase, get?_present]
  split
  · rfl
  · rfl

end SortedMap

namespace Store

variable {s : Store}

/-- What clients can see of a store. -/
def visible (s : Store) : LiveMap := s.entries.present

lemma value?_eq (s : Store) (k : Key) : s.value? k = s.visible.get? k :=
  (SortedMap.get?_present s.entries k).symm

lemma visible_write_some (s : Store) (k : Key) (v : Bytes) :
    (s.write k (some v)).visible = s.visible.insert k v :=
  SortedMap.present_insert_some s.entries k v

lemma visible_write_none (s : Store) (k : Key) : (s.write k none).visible = s.visible.erase k :=
  SortedMap.present_insert_none s.entries k

lemma visible_ofList (entries : List (Key × Bytes)) :
    (ofList entries).visible = SortedMap.ofList entries := by
  have hfold : ∀ (m : SortedMap Key (Option Bytes)),
      ((entries.map fun e => (e.1, some e.2)).foldl (fun m e => m.insert e.1 e.2) m).present =
        entries.foldl (fun m e => m.insert e.1 e.2) m.present := by
    induction entries with
    | nil => exact fun _ => rfl
    | cons e entries ih =>
      intro m
      rw [List.map_cons, List.foldl_cons, List.foldl_cons, ih, SortedMap.present_insert_some]
  exact hfold ∅

/-! ## Sizes -/

/-- Apart from its own entry, a write leaves the total of what clients see as it is. -/
lemma total_visible_write (f : Key → Bytes → Nat) (s : Store) (k : Key) (v : Option Bytes) :
    (s.write k v).visible.total f = v.elim 0 (f k) + (s.visible.erase k).total f := by
  cases v with
  | none =>
    rw [visible_write_none, Option.elim_none, Nat.zero_add]
  | some v =>
    rw [visible_write_some, SortedMap.total_eq f _ k, SortedMap.erase_insert_self,
      SortedMap.get?_insert, if_pos rfl]

/-- The size change of a write is the difference of the sizes that clients see. -/
lemma deltaOf_eq (s : Store) (k : Key) (v : Option Bytes) :
    s.deltaOf k v = LiveMap.change s.visible (s.write k v).visible := by
  have htotal : ∀ f : Key → Bytes → Nat,
      ((s.write k v).visible.total f : Int) - s.visible.total f =
        (v.elim 0 (f k) : Nat) - ((s.value? k).elim 0 (f k) : Nat) := by
    intro f
    have hbefore := SortedMap.total_eq f s.visible k
    have hafter := total_visible_write f s k v
    rw [← value?_eq] at hbefore
    omega
  unfold deltaOf LiveMap.change LiveMap.bytes
  rw [← SortedMap.total_one, ← SortedMap.total_one, htotal, htotal]
  cases v with
  | none => cases s.value? k <;> simp
  | some v => cases s.value? k <;> simp

/-! ## Live entries -/

/-- The live items are the entries that clients see. -/
lemma live_items (s : Store) : (s.items.filter fun i => !i.isTombstone) =
    s.visible.entries.map fun e => ⟨e.1, some e.2⟩ := by
  show (s.entries.entries.map _).filter _ = (s.entries.entries.filterMap _).map _
  induction s.entries.entries with
  | nil => rfl
  | cons e entries ih =>
    obtain ⟨k, v⟩ := e
    cases v with
    | none => simpa [StoreItem.isTombstone] using ih
    | some v => simpa [StoreItem.isTombstone] using ih

lemma liveCount_eq (s : Store) : s.liveCount = s.visible.size := by
  rw [liveCount, live_items, List.length_map]
  rfl

lemma liveBytes_eq (s : Store) : s.liveBytes = LiveMap.bytes s.visible := by
  rw [liveBytes, live_items, ← List.sum_eq_foldl, List.map_map]
  rfl

lemma matching_eq (s : Store) (r : KeyRange) :
    s.matching r .skipTombstones = LiveMap.within s.visible r := by
  have hsplit : s.matching r .skipTombstones =
      (s.items.filter fun i => !i.isTombstone).filter fun i => r.contains i.key := by
    rw [List.filter_filter]
    rfl
  rw [hsplit, live_items, List.filter_map]
  rfl

end Store

/-! ## Pages -/

namespace ScanLimit

variable {limit : ScanLimit} {items more : List StoreItem}

lemma Fits.of_append (h : limit.Fits (items ++ more)) : limit.Fits items := by
  obtain ⟨hcount, hbytes⟩ := h
  rw [List.length_append] at hcount
  rw [List.length_append, StoreItem.totalSize_append] at hbytes
  refine ⟨fun n hn => ?_, fun n hn => ?_⟩
  · have := hcount n hn
    omega
  · have := hbytes n hn
    omega

/-- Of items that fit, the first ones fit. -/
lemma Fits.take_mono {m n : Nat} (hmn : m ≤ n) (h : limit.Fits (items.take n)) :
    limit.Fits (items.take m) := by
  have hfront : (items.take n).take m = items.take m := by
    rw [List.take_take, Nat.min_eq_left hmn]
  rw [← List.take_append_drop m (items.take n), hfront] at h
  exact h.of_append

lemma fits_nil (limit : ScanLimit) : limit.Fits [] :=
  ⟨fun n _ => n.zero_le, fun _ _ => .inl (Nat.zero_le 1)⟩

/-- Items that fit although they are too large are a single one. -/
lemma Fits.length_eq_one (h : limit.Fits items) {n : Nat} (hn : limit.maxBytes = some n)
    (hlarge : n < StoreItem.totalSize items) : items.length = 1 := by
  have hsmall : items.length ≤ 1 := (h.2 n hn).resolve_right (Nat.not_le_of_lt hlarge)
  have hpos : items ≠ [] := by
    rintro rfl
    exact Nat.not_lt_zero n hlarge
  exact Nat.le_antisymm hsmall (List.length_pos_iff.2 hpos)

/-- There is no room for an item exactly if the items with it do not fit any more. -/
lemma full_iff (limit : ScanLimit) (items : List StoreItem) (i : StoreItem) :
    limit.full items.length (StoreItem.totalSize items) i = true ↔ ¬limit.Fits (items ++ [i]) := by
  have hlen : (items ++ [i]).length = items.length + 1 := List.length_append
  have hsize : StoreItem.totalSize (items ++ [i]) = StoreItem.totalSize items + i.size :=
    StoreItem.totalSize_append items [i]
  have hcount : (limit.maxItems.any (· ≤ items.length)) = true ↔
      ¬∀ n ∈ limit.maxItems, items.length + 1 ≤ n := by
    cases limit.maxItems with
    | none => simp
    | some n =>
      simp only [Option.any_some, decide_eq_true_eq, Option.mem_some_iff, forall_eq']
      omega
  have hbytes : (limit.maxBytes.any fun m =>
        0 < items.length && m < StoreItem.totalSize items + i.size) = true ↔
      ¬∀ n ∈ limit.maxBytes, items.length + 1 ≤ 1 ∨
        StoreItem.totalSize items + i.size ≤ n := by
    cases limit.maxBytes with
    | none => simp
    | some m => simp [List.length_pos_iff]
  unfold full Fits
  rw [Bool.or_eq_true, hcount, hbytes, hlen, hsize, ← not_and_or]

/-- A page goes on from the items that were taken as long as they fit. -/
lemma take_eq (limit : ScanLimit) (taken l : List StoreItem) :
    ∃ n ≤ l.length,
      limit.take taken.length (StoreItem.totalSize taken) l =
        ⟨l.take n, StoreItem.totalSize (taken ++ l.take n), n < l.length⟩ ∧
      (0 < n → limit.Fits (taken ++ l.take n)) ∧
      (n < l.length → ¬limit.Fits (taken ++ l.take (n + 1))) := by
  -- what was taken grows along the recursion, and the limit is on all of it
  induction l generalizing taken with
  | nil => exact ⟨0, le_rfl, by simp [take], by simp, by simp⟩
  | cons i l ih =>
    by_cases hfull : limit.full taken.length (StoreItem.totalSize taken) i = true
    · refine ⟨0, Nat.zero_le _, ?_, by simp, fun _ => ?_⟩
      · rw [take, if_pos hfull]
        simp
      · exact (full_iff limit taken i).1 hfull
    · have hfits : limit.Fits (taken ++ [i]) :=
        not_not.1 fun h => hfull ((full_iff limit taken i).2 h)
      obtain ⟨n, hn, htake, hin, hout⟩ := ih (taken ++ [i])
      refine ⟨n + 1, Nat.succ_le_succ hn, ?_, fun _ => ?_, fun hlt => ?_⟩
      · have hsize : StoreItem.totalSize (taken ++ [i]) = StoreItem.totalSize taken + i.size :=
          StoreItem.totalSize_append taken [i]
        rw [List.length_append, List.length_singleton, hsize] at htake
        rw [take, if_neg hfull, htake]
        simp
      · cases n with
        | zero => simpa using hfits
        | succ n => simpa using hin (Nat.succ_pos n)
      · simpa using hout (Nat.lt_of_succ_lt_succ hlt)

/-- A page holds as many items as fit. -/
lemma take_eq_findGreatest (limit : ScanLimit) (l : List StoreItem) :
    limit.take 0 0 l =
      let n := Nat.findGreatest (fun n => limit.Fits (l.take n)) l.length
      ⟨l.take n, StoreItem.totalSize (l.take n), n < l.length⟩ := by
  obtain ⟨n, hn, htake, hin, hout⟩ := limit.take_eq [] l
  have hgreatest : Nat.findGreatest (fun n => limit.Fits (l.take n)) l.length = n := by
    refine Nat.findGreatest_eq_iff.2 ⟨hn, fun hne => hin (Nat.pos_of_ne_zero hne), ?_⟩
    intro j hj hjl hfits
    -- if more items fitted, one item more than the page would
    exact hout (by omega) (hfits.take_mono hj)
  rw [hgreatest]
  exact htake

end ScanLimit

/-! ## Serving -/

namespace Store

variable {s : Store}

lemma visible_page (s : Store) (r : KeyRange) (limit : ScanLimit) :
    ClientAnswer.page (s.page r limit .skipTombstones).items (s.page r limit .skipTombstones).bytes
      (s.page r limit .skipTombstones).more = LiveMap.page s.visible r limit := by
  rw [page_eq, matching_eq, ScanLimit.take_eq_findGreatest]
  rfl

/-- A store that refuses nothing does with a call what the map that clients see does. -/
theorem serve_eq (h : s.refused = []) (c : ClientCall) :
    ∃ s', s.serve c = .ok (s', (LiveMap.serve s.visible c).2) ∧
      s'.visible = (LiveMap.serve s.visible c).1 ∧ s'.refused = [] := by
  have hguard : ∀ {α : Type} (call : StoreCall) (result : α), s.guard call result = .ok result := by
    intro α call result
    unfold guard
    rw [h]
    rfl
  cases c with
  | get k =>
    refine ⟨s, ?_, rfl, h⟩
    rw [serve, get, hguard, value?_eq]
    rfl
  | put k v =>
    refine ⟨s.write k (some v), ?_, visible_write_some s k v, h⟩
    rw [serve, put, hguard, deltaOf_eq, visible_write_some]
    rfl
  | delete k =>
    refine ⟨s.write k none, ?_, visible_write_none s k, h⟩
    rw [serve, delete, hguard, deltaOf_eq, visible_write_none]
    rfl
  | scan r limit =>
    refine ⟨s, ?_, rfl, h⟩
    rw [serve, scan, hguard, LiveMap.serve, ← visible_page]
    rfl
  | stats =>
    refine ⟨s, ?_, rfl, h⟩
    rw [serve, liveCount_eq, liveBytes_eq]
    rfl
  | count =>
    refine ⟨s, ?_, rfl, h⟩
    rw [serve, liveCount_eq]
    rfl

lemma serveAll_eq (h : s.refused = []) (calls : List ClientCall) :
    s.serveAll calls = .ok (LiveMap.serveAll s.visible calls) := by
  induction calls generalizing s with
  | nil => rfl
  | cons c calls ih =>
    obtain ⟨s', hserve, hvisible, hrefused⟩ := serve_eq h c
    rw [serveAll, hserve]
    show (s'.serveAll calls).bind _ = _
    rw [ih hrefused, hvisible]
    rfl

/-- A store that starts with some live entries answers all calls as a map of these entries does. -/
theorem serveAll_ofList (entries : List (Key × Bytes)) (calls : List ClientCall) :
    (ofList entries).serveAll calls = .ok (LiveMap.serveAll (.ofList entries) calls) := by
  rw [← visible_ofList]
  exact serveAll_eq rfl calls

/-- A page that ends in front of nothing but a tombstone has nothing more after it. -/
example : (ofList [([97], []), ([98], []), ([99], [])]).serveAll
      [.delete [99], .scan .full ⟨some 2, none⟩, .delete [99], .stats] =
    .ok [.changed ⟨-1, -1⟩, .page [⟨[97], some []⟩, ⟨[98], some []⟩] 2 false, .changed .zero,
      .stats 2 2] := by
  rfl

end Store

end ReplicaRing
