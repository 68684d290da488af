import ReplicaRing.Store.Basic

/-!
Reading a range of the store in pages. A page ends where the next item would break a limit, and
it holds at least one item if the limits allow any, so that reading page after page gets on.
-/

namespace ReplicaRing

/-- What bounds a page. -/
structure ScanLimit where
  maxItems : Option Nat := none
  maxBytes : Option Nat := none
  deriving DecidableEq, Repr, Inhabited

/-- Which entries a scan returns. -/
inductive ReadFilter where
  | all
  | skipTombstones
  deriving DecidableEq, Repr

def ReadFilter.accepts : ReadFilter → StoreItem → Bool
  | all, _ => true
  | skipTombstones, i => !i.isTombstone

/-- Items in ascending key order. -/
structure ScanPage where
  items : List StoreItem
  /-- The sizes of the items, added up as they were taken. -/
  bytes : Nat
  /-- Whether the limit ended the page before the range was exhausted. -/
  more : Bool
  deriving DecidableEq, Repr, Inhabited

def ScanPage.lastKey? (p : ScanPage) : Option Key := p.items.getLast?.map StoreItem.key

/-- Whether a page of so many items and bytes has no room for another item. The limit on bytes
never keeps the first item out. -/
def ScanLimit.full (limit : ScanLimit) (count bytes : Nat) (next : StoreItem) : Bool :=
  limit.maxItems.any (· ≤ count) ||
    limit.maxBytes.any fun m => 0 < count && m < bytes + next.size

/-- Takes items while there is room, and tells whether any was left. So many items and bytes are
on the page already. -/
def ScanLimit.take (limit : ScanLimit) : Nat → Nat → List StoreItem → ScanPage
  | _, bytes, [] => ⟨[], bytes, false⟩
  | count, bytes, i :: rest =>
    if limit.full count bytes i then ⟨[], bytes, true⟩
    else
      let page := limit.take (count + 1) (bytes + i.size) rest
      { page with items := i :: page.items }

namespace Store

/-- The entries of a range that pass the filter, in key order. -/
def matching (s : Store) (range : KeyRange) (filter : ReadFilter) : List StoreItem :=
  s.items.filter fun i => range.contains i.key && filter.accepts i

/-- One page of a range. A range that no key can satisfy is not looked for. -/
def page (s : Store) (range : KeyRange) (limit : ScanLimit) (filter : ReadFilter) : ScanPage :=
  if range.isEmpty then ⟨[], 0, false⟩ else limit.take 0 0 (s.matching range filter)

def scan (s : Store) (range : KeyRange) (limit : ScanLimit) (filter : ReadFilter) :
    Except Fault ScanPage :=
  s.guard .scan (s.page range limit filter)

/-- Page after page: the range, then what of it lies above the last key, while there is more and
a last key to go on from. At most as many pages as the fuel. -/
def pages (s : Store) (limit : ScanLimit) (filter : ReadFilter) : Nat → KeyRange → List ScanPage
  | 0, _ => []
  | fuel + 1, range =>
    let page := s.page range limit filter
    match page.more, page.lastKey? with
    | true, some k => page :: s.pages limit filter fuel (range.after k)
    | _, _ => [page]

end Store

end ReplicaRing
