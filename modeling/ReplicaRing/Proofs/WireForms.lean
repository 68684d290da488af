import Mathlib.Data.List.Basic
import Mathlib.Tactic.Common
import ReplicaRing.Proofs.BinaryForm

/-!
The binary forms of the wire and log types, both ways. A type is faithful if its values survive
their form, and canonical if a value has no other form: what was read is what the value would be
written as. Fixed words, texts, pairs, options and lists come first. A record is then read as the
tuple of its fields, and a type with several alternatives as the number of one of them and its
content, so that each type of the protocol only lists what it is made of. A set may be written
with its members in any order and repeated, so types with a view in them are faithful but not
canonical.
-/

namespace ReplicaRing.Wire

/-! ## What a reader accepts -/

section

variable {α β γ : Type} {r : Reader α} {b rest : Bytes}

lemma bind_eq_ok {f : α → Reader β} {c : β} :
    r.bind f b = .ok (c, rest) ↔ ∃ a mid, r b = .ok (a, mid) ∧ f a mid = .ok (c, rest) := by
  unfold Reader.bind
  cases r b with
  | error e => simp
  | ok p => obtain ⟨a, mid⟩ := p; simp

lemma map_eq_ok {f : α → β} {c : β} :
    r.map f b = .ok (c, rest) ↔ ∃ a, r b = .ok (a, rest) ∧ f a = c := by
  simp only [Reader.map, bind_eq_ok, Reader.pure]
  constructor
  · rintro ⟨a, mid, hr, h⟩
    cases h
    exact ⟨a, hr, rfl⟩
  · rintro ⟨a, hr, rfl⟩
    exact ⟨a, rest, hr, rfl⟩

lemma map_bind (f : β → γ) (g : α → Reader β) : (r.bind g).map f = r.bind fun a => (g a).map f := by
  funext b
  simp only [Reader.map, Reader.bind]
  cases r b <;> rfl

lemma map_map (f : β → γ) (g : α → β) : (r.map g).map f = r.map fun a => f (g a) := by
  funext b
  simp only [Reader.map, Reader.bind]
  cases r b <;> rfl

lemma map_read_prod [Encode α] [Encode β] (f : α → β → γ) :
    (read : Reader (α × β)).map (Function.uncurry f) =
      (read : Reader α).bind fun a => (read : Reader β).map (f a) :=
  (map_bind ..).trans (congrArg _ (funext fun _ => map_map ..))

lemma takeBytes_eq_ok {n : Nat} {l : Bytes} :
    takeBytes n b = .ok (l, rest) ↔ l.length = n ∧ b = l ++ rest := by
  constructor
  · intro h
    unfold takeBytes at h
    split at h
    · cases h
      simp_all
    · cases h
  · rintro ⟨hlen, rfl⟩
    exact takeBytes_append hlen rest

end

lemma ofLittleEndian_lt (l : Bytes) : ofLittleEndian l < 256 ^ l.length := by
  induction l with
  | nil => simp [ofLittleEndian]
  | cons c l ih =>
    have hc := c.toNat_lt
    rw [List.length_cons, Nat.pow_succ, ofLittleEndian]
    omega

lemma littleEndian_ofLittleEndian (l : Bytes) : littleEndian l.length (ofLittleEndian l) = l := by
  induction l with
  | nil => rfl
  | cons c l ih =>
    have hc := c.toNat_lt
    have hlow : (c.toNat + 256 * ofLittleEndian l) % 256 = c.toNat := by omega
    have hhigh : (c.toNat + 256 * ofLittleEndian l) / 256 = ofLittleEndian l := by omega
    rw [List.length_cons, littleEndian, ofLittleEndian, hlow, hhigh, ih, UInt8.ofNat_toNat]

lemma readWord_eq_ok {width n : Nat} {b rest : Bytes} :
    readWord width b = .ok (n, rest) ↔ n < 256 ^ width ∧ b = littleEndian width n ++ rest := by
  constructor
  · intro h
    obtain ⟨l, hl, rfl⟩ := map_eq_ok.1 h
    obtain ⟨rfl, rfl⟩ := takeBytes_eq_ok.1 hl
    exact ⟨ofLittleEndian_lt l, by rw [littleEndian_ofLittleEndian]⟩
  · rintro ⟨hn, rfl⟩
    exact readWord_append hn rest

/-! ## Faithful and canonical forms -/

/-- A value whose form has a length that fits a word, or that was read off some bytes. Lengths
are written as 64-bit words, so a value outside has no form to survive. -/
def Writable {α : Type} [Encode α] (a : α) : Prop :=
  (put a).length < 2 ^ 64 ∨ ∃ b rest, (read : Reader α) b = .ok (a, rest)

/-- Values survive their form. -/
class Faithful (α : Type) [Encode α] : Prop where
  survives : ∀ a : α, Writable a → Survives a

/-- What is read is the form of the value and what follows it. -/
class Canonical (α : Type) [Encode α] : Prop where
  exact : ∀ {b rest : Bytes} {a : α}, (read : Reader α) b = .ok (a, rest) → b = put a ++ rest

/-! ## Words -/

/-- A type of numbers that are written as words of a width. -/
structure WordForm (α : Type) [Encode α] (width : Nat) (toNat : α → Nat) (ofNat : Nat → α) :
    Prop where
  put_eq : ∀ a : α, put a = littleEndian width (toNat a)
  read_eq : (read : Reader α) = (readWord width).map ofNat
  lt : ∀ a, toNat a < 256 ^ width
  ofNat_toNat : ∀ a, ofNat (toNat a) = a
  toNat_ofNat : ∀ n < 256 ^ width, toNat (ofNat n) = n

namespace WordForm

variable {α : Type} [Encode α] {width : Nat} {toNat : α → Nat} {ofNat : Nat → α}

lemma faithful (h : WordForm α width toNat ofNat) : Faithful α where
  survives a _ rest := by
    rw [h.read_eq, h.put_eq, map_of_ok _ (readWord_append (h.lt a) rest), h.ofNat_toNat]

lemma canonical (h : WordForm α width toNat ofNat) : Canonical α where
  exact := by
    intro b rest a hread
    rw [h.read_eq] at hread
    obtain ⟨n, hn, rfl⟩ := map_eq_ok.1 hread
    obtain ⟨hlt, rfl⟩ := readWord_eq_ok.1 hn
    rw [h.put_eq, h.toNat_ofNat n hlt]

end WordForm

lemma wordForm_uint8 : WordForm UInt8 1 UInt8.toNat UInt8.ofNat where
  put_eq _ := rfl
  read_eq := rfl
  lt a := a.toNat_lt
  ofNat_toNat _ := UInt8.ofNat_toNat
  toNat_ofNat _ h := UInt8.toNat_ofNat_of_lt' h

lemma wordForm_uint16 : WordForm UInt16 2 UInt16.toNat UInt16.ofNat where
  put_eq _ := rfl
  read_eq := rfl
  lt a := a.toNat_lt
  ofNat_toNat _ := UInt16.ofNat_toNat
  toNat_ofNat _ h := UInt16.toNat_ofNat_of_lt' h

lemma wordForm_uint32 : WordForm UInt32 4 UInt32.toNat UInt32.ofNat where
  put_eq _ := rfl
  read_eq := rfl
  lt a := a.toNat_lt
  ofNat_toNat _ := UInt32.ofNat_toNat
  toNat_ofNat _ h := UInt32.toNat_ofNat_of_lt' h

lemma wordForm_uint64 : WordForm UInt64 8 UInt64.toNat UInt64.ofNat where
  put_eq _ := rfl
  read_eq := rfl
  lt a := a.toNat_lt
  ofNat_toNat _ := UInt64.ofNat_toNat
  toNat_ofNat _ h := UInt64.toNat_ofNat_of_lt' h

instance : Faithful UInt8 := wordForm_uint8.faithful
instance : Canonical UInt8 := wordForm_uint8.canonical
instance : Faithful UInt16 := wordForm_uint16.faithful
instance : Canonical UInt16 := wordForm_uint16.canonical
instance : Faithful UInt32 := wordForm_uint32.faithful
instance : Canonical UInt32 := wordForm_uint32.canonical
instance : Faithful UInt64 := wordForm_uint64.faithful
instance : Canonical UInt64 := wordForm_uint64.canonical

/-! ## Truth values and texts -/

/-- Nothing is written as no bytes. -/
instance : Encode Unit where
  put _ := []
  read := Reader.pure ()

instance : Faithful Unit where
  survives _ _ _ := rfl

instance : Canonical Unit where
  exact h := by cases h; rfl

instance : Faithful Bool where
  survives a _ rest := by
    cases a with
    | false => exact bind_of_ok _ (takeBytes_append (n := 1) (l := [0]) rfl rest)
    | true => exact bind_of_ok _ (takeBytes_append (n := 1) (l := [1]) rfl rest)

instance : Canonical Bool where
  exact h := by
    obtain ⟨l, mid, hl, hrest⟩ := bind_eq_ok.1 h
    obtain ⟨-, rfl⟩ := takeBytes_eq_ok.1 hl
    split at hrest <;> cases hrest <;> rfl

lemma fromUTF8?_eq_some {b : ByteArray} {s : String} :
    String.fromUTF8? b = some s ↔ s.toByteArray = b := by
  unfold String.fromUTF8?
  constructor
  · intro h
    split at h
    · cases h
      rfl
    · cases h
  · rintro rfl
    rw [dif_pos s.isValidUTF8]
    rfl

lemma length_put_string (s : String) :
    (put s : Bytes).length = 8 + s.toByteArray.data.toList.length := by
  show (putLength s.utf8ByteSize ++ s.toByteArray.data.toList).length = _
  rw [List.length_append, putLength, length_littleEndian]

instance : Faithful String where
  survives s h rest := by
    have hsize : s.toByteArray.data.toList.length = s.utf8ByteSize := by simp
    have hlt : s.utf8ByteSize < 2 ^ 64 := by
      rcases h with h | ⟨b, rest, h⟩
      · rw [length_put_string] at h
        omega
      · -- a text that was read is as long as the word before it says
        obtain ⟨n, mid, hn, htext⟩ := bind_eq_ok.1 h
        obtain ⟨l, mid, hl, hrest⟩ := bind_eq_ok.1 htext
        obtain ⟨hlt, -⟩ := readWord_eq_ok.1 hn
        obtain ⟨rfl, -⟩ := takeBytes_eq_ok.1 hl
        cases ht : String.fromUTF8? ⟨l.toArray⟩ with
        | none =>
          rw [ht] at hrest
          cases hrest
        | some t =>
          rw [ht] at hrest
          cases hrest
          rw [← hsize, fromUTF8?_eq_some.1 ht]
          simpa using hlt
    have hput : (put s : Bytes) ++ rest =
        putLength s.utf8ByteSize ++ (s.toByteArray.data.toList ++ rest) := List.append_assoc ..
    rw [hput]
    refine (bind_of_ok _ (readLength_append hlt _)).trans ?_
    rw [bind_of_ok _ (takeBytes_append hsize rest)]
    have hback : String.fromUTF8? ⟨s.toByteArray.data.toList.toArray⟩ = some s :=
      fromUTF8?_eq_some.2 (by simp)
    rw [hback]
    rfl

instance : Canonical String where
  exact h := by
    obtain ⟨n, mid, hn, htext⟩ := bind_eq_ok.1 h
    obtain ⟨l, mid, hl, hrest⟩ := bind_eq_ok.1 htext
    obtain ⟨-, rfl⟩ := readWord_eq_ok.1 hn
    obtain ⟨rfl, rfl⟩ := takeBytes_eq_ok.1 hl
    cases hs : String.fromUTF8? ⟨l.toArray⟩ with
    | none =>
      rw [hs] at hrest
      cases hrest
    | some s =>
      rw [hs] at hrest
      obtain ⟨rfl, rfl⟩ : s = _ ∧ mid = _ := by simpa [Reader.pure] using hrest
      have hbytes : s.toByteArray.data.toList = l := by rw [fromUTF8?_eq_some.1 hs]
      have hsize : s.utf8ByteSize = l.length := by simp [← hbytes]
      show _ = putLength s.utf8ByteSize ++ s.toByteArray.data.toList ++ _
      rw [hsize, hbytes, List.append_assoc, putLength]

/-! ## Pairs and options -/

section

variable {α β : Type} [Encode α] [Encode β]

instance [Faithful α] [Faithful β] : Faithful (α × β) where
  survives p h rest := by
    obtain ⟨a, b⟩ := p
    have hparts : Writable a ∧ Writable b := by
      rcases h with h | ⟨c, r, h⟩
      · have hlen : (put a ++ put b).length < 2 ^ 64 := h
        rw [List.length_append] at hlen
        exact ⟨.inl (by omega), .inl (by omega)⟩
      · obtain ⟨a', mid, ha, h⟩ := bind_eq_ok.1 h
        obtain ⟨b', hb, h⟩ := map_eq_ok.1 h
        cases h
        exact ⟨.inr ⟨_, _, ha⟩, .inr ⟨_, _, hb⟩⟩
    have ha := Faithful.survives a hparts.1 (put b ++ rest)
    have hb := Faithful.survives b hparts.2 rest
    have hput : (put (a, b) : Bytes) ++ rest = put a ++ (put b ++ rest) := List.append_assoc ..
    rw [hput]
    exact (bind_of_ok _ ha).trans (map_of_ok _ hb)

instance [Canonical α] [Canonical β] : Canonical (α × β) where
  exact h := by
    obtain ⟨a, mid, ha, h⟩ := bind_eq_ok.1 h
    obtain ⟨b, hb, h⟩ := map_eq_ok.1 h
    cases h
    rw [Canonical.exact ha, Canonical.exact hb]
    exact (List.append_assoc ..).symm

instance [Faithful α] : Faithful (Option α) where
  survives o h := by
    refine survives_option fun a ha => Faithful.survives a ?_
    cases ha
    rcases h with h | ⟨b, r, h⟩
    · have hlen : (1 :: put a : Bytes).length < 2 ^ 64 := h
      rw [List.length_cons] at hlen
      exact .inl (by omega)
    · obtain ⟨l, mid, -, h⟩ := bind_eq_ok.1 h
      split at h
      · cases h
      · obtain ⟨a', ha, h⟩ := map_eq_ok.1 h
        cases h
        exact .inr ⟨_, _, ha⟩
      · cases h

instance [Canonical α] : Canonical (Option α) where
  exact h := by
    obtain ⟨l, mid, hl, hrest⟩ := bind_eq_ok.1 h
    obtain ⟨-, rfl⟩ := takeBytes_eq_ok.1 hl
    split at hrest
    · cases hrest
      rfl
    · obtain ⟨a, ha, heq⟩ := map_eq_ok.1 hrest
      cases heq
      rw [Canonical.exact ha]
      rfl
    · cases hrest

end

/-! ## Lists and sets -/

/-- No value is written as no bytes, so that a list is no longer than its form. -/
class Solid (α : Type) [Encode α] : Prop where
  length_put_pos : ∀ a : α, 0 < (put a).length

section

variable {α : Type} [Encode α]

/-- The values that are read one after the other were each read, and if their forms are canonical
the bytes are these forms in a row. -/
lemma readMany_eq_ok {n : Nat} {done l : List α} {b rest : Bytes}
    (h : readMany read n done b = .ok (l, rest)) :
    ∃ tail, l = done.reverse ++ tail ∧ tail.length = n ∧ (∀ a ∈ tail, Writable a) ∧
      (Canonical α → b = tail.flatMap put ++ rest) := by
  induction n generalizing done b with
  | zero =>
    cases h
    exact ⟨[], by simp, rfl, by simp, fun _ => rfl⟩
  | succ n ih =>
    obtain ⟨a, mid, ha, htail⟩ := bind_eq_ok.1 h
    obtain ⟨tail, rfl, hlen, hall, hb⟩ := ih htail
    refine ⟨a :: tail, by simp, by simp [hlen], ?_, fun hcanon => ?_⟩
    · rintro x (_ | ⟨_, hx⟩)
      · exact .inr ⟨_, _, ha⟩
      · exact hall x hx
    · rw [Canonical.exact ha, hb hcanon, List.flatMap_cons, List.append_assoc]

lemma length_le_flatMap_put [Solid α] (l : List α) :
    l.length ≤ (l.flatMap put).length ∧ ∀ a ∈ l, (put a).length ≤ (l.flatMap put).length := by
  induction l with
  | nil => simp
  | cons x l ih =>
    have hx := Solid.length_put_pos x
    rw [List.flatMap_cons, List.length_append, List.length_cons]
    refine ⟨by omega, ?_⟩
    rintro a (_ | ⟨_, ha⟩)
    · omega
    · have := ih.2 a ha
      omega

lemma Writable.list [Solid α] {l : List α} (h : Writable l) :
    l.length < 2 ^ 64 ∧ ∀ a ∈ l, Writable a := by
  rcases h with h | ⟨b, rest, h⟩
  · have hlen : (putLength l.length ++ l.flatMap put).length < 2 ^ 64 := h
    obtain ⟨hl, hall⟩ := length_le_flatMap_put l
    rw [List.length_append] at hlen
    exact ⟨by omega, fun a ha => .inl (by have := hall a ha; omega)⟩
  · obtain ⟨n, mid, hn, hmany⟩ := bind_eq_ok.1 h
    obtain ⟨hlt, -⟩ := readWord_eq_ok.1 hn
    obtain ⟨tail, rfl, rfl, hall, -⟩ := readMany_eq_ok hmany
    exact ⟨by simpa using hlt, by simpa using hall⟩

instance [Solid α] [Faithful α] : Faithful (List α) where
  survives l h := by
    obtain ⟨hlen, hall⟩ := h.list
    exact survives_list hlen fun a ha => Faithful.survives a (hall a ha)

instance [Canonical α] : Canonical (List α) where
  exact h := by
    obtain ⟨n, mid, hn, hmany⟩ := bind_eq_ok.1 h
    obtain ⟨-, rfl⟩ := readWord_eq_ok.1 hn
    obtain ⟨tail, rfl, rfl, -, hb⟩ := readMany_eq_ok hmany
    rw [hb inferInstance]
    exact (List.append_assoc ..).symm

instance : Solid UInt8 where
  length_put_pos _ := Nat.one_pos

instance {β : Type} [Encode β] [Solid α] : Solid (α × β) where
  length_put_pos p := by
    have hp := Solid.length_put_pos p.1
    show 0 < (put p.1 ++ put p.2).length
    rw [List.length_append]
    omega

instance : Solid (List α) where
  length_put_pos l := by
    show 0 < (putLength l.length ++ l.flatMap put).length
    rw [List.length_append, putLength, length_littleEndian]
    omega

instance : Solid String where
  length_put_pos s := by
    rw [length_put_string]
    omega

end

section

variable {α : Type} [Ord α]

lemma length_insertMember_le (a : α) (l : List α) :
    (SortedSet.insertMember a l).length ≤ l.length + 1 := by
  induction l with
  | nil => rfl
  | cons b l ih =>
    simp only [SortedSet.insertMember]
    split <;> simp only [List.length_cons] <;> omega

/-- What comes after all members goes to the end. -/
lemma insertMember_eq_append {a : α} {l : List α} (h : ∀ b ∈ l, compare a b = .gt) :
    SortedSet.insertMember a l = l ++ [a] := by
  induction l with
  | nil => rfl
  | cons b l ih =>
    have htail := ih fun c hc => h c (by simp [hc])
    rw [SortedSet.insertMember, h b (by simp)]
    simp only [List.cons_append, htail]

variable [Std.TransOrd α]

lemma size_foldl_insert_le (l : List α) (s : SortedSet α) :
    (l.foldl SortedSet.insert s).size ≤ s.size + l.length := by
  induction l generalizing s with
  | nil => rfl
  | cons a l ih =>
    have hone : (s.insert a).size ≤ s.size + 1 := length_insertMember_le a s.toList
    have hrest := ih (s.insert a)
    rw [List.foldl_cons, List.length_cons]
    omega

/-- Inserting the members of an ascending list one after the other appends them. -/
lemma toList_foldl_insert {l : List α} {s : SortedSet α}
    (h : (s.toList ++ l).Pairwise fun a b => compare a b = .lt) :
    (l.foldl SortedSet.insert s).toList = s.toList ++ l := by
  induction l generalizing s with
  | nil => simp
  | cons a l ih =>
    have hgt : ∀ b ∈ s.toList, compare a b = .gt := fun b hb =>
      Std.OrientedCmp.gt_of_lt ((List.pairwise_append.1 h).2.2 b hb a (by simp))
    have hinsert : (s.insert a).toList = s.toList ++ [a] := insertMember_eq_append hgt
    rw [List.foldl_cons, ih (by simpa [hinsert] using h), hinsert]
    simp

lemma ofList_toList (s : SortedSet α) : SortedSet.ofList s.toList = s := by
  have h : (SortedSet.ofList s.toList).toList = s.toList :=
    toList_foldl_insert (s := ∅) s.ascending
  obtain ⟨l, hl⟩ := s
  cases hset : SortedSet.ofList l with
  | mk l' hl' =>
    simp only [hset] at h
    subst h
    rfl

instance [Std.LawfulEqOrd α] [Encode α] [Solid α] [Faithful α] : Faithful (SortedSet α) where
  survives s h rest := by
    have hfits : s.toList.length < 2 ^ 64 ∧ ∀ a ∈ s.toList, Writable a := by
      rcases h with h | ⟨b, rest, h⟩
      · exact Writable.list (.inl h)
      · -- the list it was read from may repeat members, so the set is no larger
        obtain ⟨l, hl, rfl⟩ := map_eq_ok.1 h
        obtain ⟨hlen, hall⟩ := Writable.list (.inr ⟨_, _, hl⟩)
        have hle : (SortedSet.ofList l).toList.length ≤ 0 + l.length := size_foldl_insert_le l ∅
        exact ⟨by omega, fun a ha => hall a (SortedSet.mem_ofList.1 ha)⟩
    -- the members are written in ascending order, and inserting them in it gives the set back
    have hlist : Survives s.toList :=
      survives_list hfits.1 fun a ha => Faithful.survives a (hfits.2 a ha)
    exact (map_of_ok _ (hlist rest)).trans (by rw [ofList_toList])

end

/-! ## Records and alternatives -/

/-- A type whose values are made of those of another and written like them. -/
structure Record (α : Type) {β : Type} [Encode α] [Encode β] (make : α → β) : Prop where
  put_eq : ∀ a, put (make a) = put a
  read_eq : (read : Reader β) = (read : Reader α).map make
  covers : ∀ x : β, ∃ a, make a = x

namespace Record

variable {α β : Type} [Encode α] [Encode β] {make : α → β}

lemma faithful [Faithful α] (h : Record α make) : Faithful β where
  survives x hx rest := by
    obtain ⟨a, rfl, ha⟩ : ∃ a, make a = x ∧ Writable a := by
      rcases hx with hx | ⟨b, rest, hx⟩
      · obtain ⟨a, rfl⟩ := h.covers x
        exact ⟨a, rfl, .inl (by rwa [h.put_eq] at hx)⟩
      · rw [h.read_eq] at hx
        obtain ⟨a, ha, rfl⟩ := map_eq_ok.1 hx
        exact ⟨a, rfl, .inr ⟨b, rest, ha⟩⟩
    rw [h.read_eq, h.put_eq, map_of_ok _ (Faithful.survives a ha rest)]

lemma canonical [Canonical α] (h : Record α make) : Canonical β where
  exact hx := by
    rw [h.read_eq] at hx
    obtain ⟨a, ha, rfl⟩ := map_eq_ok.1 hx
    rw [Canonical.exact ha, h.put_eq]

end Record

/-- An alternative of a type: what it holds, and the value that is made of that. -/
structure Variant (β : Type) where
  {Content : Type}
  [form : Encode Content]
  [faithful : Faithful Content]
  make : Content → β

attribute [instance] Variant.form Variant.faithful

/-- Reads the alternative of a number. -/
def readVariant {β : Type} (alts : List (Variant β)) (n : Nat) : Reader β :=
  match alts[n]? with
  | some A => (read : Reader A.Content).map A.make
  | none => Reader.fail (.alternative n alts.length)

/-- A type whose values are written as the number of their alternative and its content. -/
structure Numbered (β : Type) [Encode β] (alts : List (Variant β)) : Prop where
  few : alts.length ≤ 256 ^ 4
  put_eq : ∀ p ∈ alts.zipIdx, ∀ c, put (p.1.make c) = putTag p.2 ++ put c
  read_eq : (read : Reader β) = readTag.bind (readVariant alts)
  covers : ∀ x : β, ∃ (n : Nat) (A : Variant β), alts[n]? = some A ∧ ∃ c, A.make c = x

namespace Numbered

variable {β : Type} [Encode β] {alts : List (Variant β)}

lemma put_make (h : Numbered β alts) {n : Nat} {A : Variant β} (hA : alts[n]? = some A)
    (c : A.Content) : put (A.make c) = putTag n ++ put c :=
  h.put_eq (A, n) (List.mem_zipIdx_iff_getElem?.2 hA) c

/-- What was read is some alternative with a content that was read after its number. -/
lemma of_read (h : Numbered β alts) {b rest : Bytes} {x : β}
    (hx : (read : Reader β) b = .ok (x, rest)) :
    ∃ (n : Nat) (A : Variant β) (mid : Bytes) (c : A.Content), alts[n]? = some A ∧
      A.make c = x ∧ b = putTag n ++ mid ∧ read mid = .ok (c, rest) := by
  rw [h.read_eq] at hx
  obtain ⟨n, mid, hn, hrest⟩ := bind_eq_ok.1 hx
  obtain ⟨-, rfl⟩ := readWord_eq_ok.1 hn
  unfold readVariant at hrest
  cases hA : alts[n]? with
  | none =>
    rw [hA] at hrest
    cases hrest
  | some A =>
    rw [hA] at hrest
    obtain ⟨c, hc, rfl⟩ := map_eq_ok.1 hrest
    exact ⟨n, A, mid, c, hA, rfl, rfl, hc⟩

lemma faithful (h : Numbered β alts) : Faithful β where
  survives x hx rest := by
    obtain ⟨n, A, c, hA, rfl, hc⟩ : ∃ (n : Nat) (A : Variant β) (c : A.Content),
        alts[n]? = some A ∧ A.make c = x ∧ Writable c := by
      rcases hx with hx | ⟨b, rest, hx⟩
      · obtain ⟨n, A, hA, c, rfl⟩ := h.covers x
        rw [h.put_make hA, List.length_append] at hx
        exact ⟨n, A, c, hA, rfl, .inl (by omega)⟩
      · obtain ⟨n, A, mid, c, hA, rfl, -, hc⟩ := h.of_read hx
        exact ⟨n, A, c, hA, rfl, .inr ⟨mid, rest, hc⟩⟩
    -- the number is not cut off, so the reader goes on with the same alternative
    have hn : n < 256 ^ 4 := by
      obtain ⟨hlt, -⟩ := List.getElem?_eq_some_iff.1 hA
      exact lt_of_lt_of_le hlt h.few
    have hread : readVariant alts n (put c ++ rest) = .ok (A.make c, rest) := by
      unfold readVariant
      rw [hA]
      exact map_of_ok _ (Faithful.survives c hc rest)
    rw [h.read_eq, h.put_make hA, List.append_assoc, putTag, readTag,
      bind_of_ok _ (readWord_append hn _), hread]

lemma canonical (h : Numbered β alts)
    (hall : alts.Forall fun A => Canonical A.Content) : Canonical β where
  exact hx := by
    obtain ⟨n, A, mid, c, hA, rfl, rfl, hc⟩ := h.of_read hx
    have hcontent := List.forall_iff_forall_mem.1 hall A (List.mem_of_getElem? hA)
    rw [h.put_make hA, hcontent.exact hc, List.append_assoc]

end Numbered

/-! ## Keys, nodes and views -/

lemma numbered_keyBound :
    Numbered KeyBound [⟨KeyBound.included⟩, ⟨KeyBound.excluded⟩, ⟨fun () => .unbounded⟩] where
  few := by decide
  put_eq := List.forall_iff_forall_mem.1 ⟨fun _ => rfl, fun _ => rfl, fun _ => rfl⟩
  read_eq := congrArg readTag.bind (funext fun
    | 0 => rfl
    | 1 => rfl
    | 2 => rfl
    | _ + 3 => rfl)
  covers
    | .included k => ⟨0, _, rfl, k, rfl⟩
    | .excluded k => ⟨1, _, rfl, k, rfl⟩
    | .unbounded => ⟨2, _, rfl, (), rfl⟩

instance : Faithful KeyBound := numbered_keyBound.faithful

instance : Canonical KeyBound :=
  numbered_keyBound.canonical ⟨inferInstance, inferInstance, inferInstanceAs (Canonical Unit)⟩

lemma record_keyRange : Record (KeyBound × KeyBound) (Function.uncurry KeyRange.mk) where
  put_eq _ := rfl
  read_eq := (map_read_prod _).symm
  covers r := ⟨(r.start, r.stop), rfl⟩

instance : Faithful KeyRange := record_keyRange.faithful

instance : Canonical KeyRange := record_keyRange.canonical

lemma record_nodeId : Record (String × UInt16 × Option UInt32)
    (Function.uncurry fun host => Function.uncurry (NodeId.mk host)) where
  put_eq _ := List.append_assoc ..
  read_eq := by simp only [map_read_prod]; rfl
  covers n := ⟨(n.host, n.port, n.vnode), rfl⟩

instance : Faithful NodeId := record_nodeId.faithful

instance : Canonical NodeId := record_nodeId.canonical

instance : Solid NodeId where
  length_put_pos n := by
    have hhost := Solid.length_put_pos n.host
    show 0 < (put n.host ++ put n.port ++ put n.vnode).length
    simp only [List.length_append]
    omega

lemma record_view : Record (UInt64 × SortedSet NodeId) (Function.uncurry View.mk) where
  put_eq _ := rfl
  read_eq := (map_read_prod _).symm
  covers v := ⟨(v.id, v.members), rfl⟩

instance : Faithful View := record_view.faithful

/-! ## Operations and answers -/

lemma numbered_operationKind :
    Numbered OperationKind [⟨OperationKind.get⟩, ⟨Function.uncurry OperationKind.put⟩,
      ⟨OperationKind.delete⟩, ⟨Function.uncurry OperationKind.rangeQuery⟩,
      ⟨Function.uncurry OperationKind.other⟩] where
  few := by decide
  put_eq := List.forall_iff_forall_mem.1 ⟨fun _ => rfl, fun _ => List.append_assoc .., fun _ => rfl,
    fun _ => List.append_assoc .., fun _ => List.append_assoc ..⟩
  read_eq := congrArg readTag.bind (funext fun
    | 0 => rfl
    | 1 => (map_read_prod _).symm
    | 2 => rfl
    | 3 => (map_read_prod _).symm
    | 4 => (map_read_prod _).symm
    | _ + 5 => rfl)
  covers
    | .get k => ⟨0, _, rfl, k, rfl⟩
    | .put k v => ⟨1, _, rfl, (k, v), rfl⟩
    | .delete k => ⟨2, _, rfl, k, rfl⟩
    | .rangeQuery r limit => ⟨3, _, rfl, (r, limit), rfl⟩
    | .other name payload => ⟨4, _, rfl, (name, payload), rfl⟩

instance : Faithful OperationKind := numbered_operationKind.faithful

instance : Canonical OperationKind :=
  numbered_operationKind.canonical ⟨inferInstance, inferInstance, inferInstance, inferInstance,
    inferInstanceAs (Canonical (String × Bytes))⟩

lemma record_operation : Record (UInt64 × OperationKind) (Function.uncurry Operation.mk) where
  put_eq _ := rfl
  read_eq := (map_read_prod _).symm
  covers op := ⟨(op.id, op.kind), rfl⟩

instance : Faithful Operation := record_operation.faithful

instance : Canonical Operation := record_operation.canonical

/-- A signed word is written as the unsigned one with its bits. -/
lemma record_int64 : Record UInt64 UInt64.toInt64 where
  put_eq _ := rfl
  read_eq := rfl
  covers n := ⟨n.toUInt64, rfl⟩

instance : Faithful Int64 := record_int64.faithful

instance : Canonical Int64 := record_int64.canonical

lemma record_sizeDelta : Record (Int64 × Int64) (Function.uncurry SizeDelta.mk) where
  put_eq _ := rfl
  read_eq := (map_read_prod _).symm
  covers d := ⟨(d.bytes, d.keys), rfl⟩

instance : Faithful SizeDelta := record_sizeDelta.faithful

instance : Canonical SizeDelta := record_sizeDelta.canonical

lemma numbered_response :
    Numbered Response [⟨Response.value⟩, ⟨fun () => .written⟩, ⟨fun () => .deleted⟩,
      ⟨Function.uncurry Response.range⟩, ⟨Response.unsupported⟩, ⟨fun () => .duplicate⟩,
      ⟨Response.unavailable⟩, ⟨Response.failed⟩] where
  few := by decide
  put_eq := List.forall_iff_forall_mem.1 ⟨fun _ => rfl, fun _ => rfl, fun _ => rfl,
    fun _ => List.append_assoc .., fun _ => rfl, fun _ => rfl, fun _ => rfl, fun _ => rfl⟩
  read_eq := congrArg readTag.bind (funext fun
    | 0 => rfl
    | 1 => rfl
    | 2 => rfl
    | 3 => (map_read_prod _).symm
    | 4 => rfl
    | 5 => rfl
    | 6 => rfl
    | 7 => rfl
    | _ + 8 => rfl)
  covers
    | .value v => ⟨0, _, rfl, v, rfl⟩
    | .written => ⟨1, _, rfl, (), rfl⟩
    | .deleted => ⟨2, _, rfl, (), rfl⟩
    | .range items remaining => ⟨3, _, rfl, (items, remaining), rfl⟩
    | .unsupported text => ⟨4, _, rfl, text, rfl⟩
    | .duplicate => ⟨5, _, rfl, (), rfl⟩
    | .unavailable text => ⟨6, _, rfl, text, rfl⟩
    | .failed text => ⟨7, _, rfl, text, rfl⟩

instance : Faithful Response := numbered_response.faithful

instance : Canonical Response :=
  numbered_response.canonical ⟨inferInstance, inferInstance, inferInstance, inferInstance,
    inferInstance, inferInstance, inferInstance, inferInstanceAs (Canonical String)⟩

lemma record_answer : Record (UInt64 × Response × SizeDelta)
    (Function.uncurry fun id => Function.uncurry (Answer.mk id)) where
  put_eq _ := List.append_assoc ..
  read_eq := by simp only [map_read_prod]; rfl
  covers a := ⟨(a.id, a.response, a.delta), rfl⟩

instance : Faithful Answer := record_answer.faithful

instance : Canonical Answer := record_answer.canonical

/-! ## The log -/

lemma record_reconfigure : Record (View × UInt64 × UInt64 × KeyRange)
    (Function.uncurry fun view => Function.uncurry fun quorum =>
      Function.uncurry (Reconfigure.mk view quorum)) where
  put_eq p := by
    show put p.1 ++ put p.2.1 ++ put p.2.2.1 ++ put p.2.2.2 =
      put p.1 ++ (put p.2.1 ++ (put p.2.2.1 ++ put p.2.2.2))
    simp only [List.append_assoc]
  read_eq := by simp only [map_read_prod]; rfl
  covers r := ⟨(r.view, r.quorum, r.versionId, r.responsibility), rfl⟩

instance : Faithful Reconfigure := record_reconfigure.faithful

lemma numbered_logValue :
    Numbered LogValue [⟨fun () => .noop⟩, ⟨LogValue.reconfigure⟩, ⟨LogValue.operation⟩] where
  few := by decide
  put_eq := List.forall_iff_forall_mem.1 ⟨fun _ => rfl, fun _ => rfl, fun _ => rfl⟩
  read_eq := congrArg readTag.bind (funext fun
    | 0 => rfl
    | 1 => rfl
    | 2 => rfl
    | _ + 3 => rfl)
  covers
    | .noop => ⟨0, _, rfl, (), rfl⟩
    | .reconfigure r => ⟨1, _, rfl, r, rfl⟩
    | .operation op => ⟨2, _, rfl, op, rfl⟩

instance : Faithful LogValue := numbered_logValue.faithful

lemma numbered_logRequest :
    Numbered LogRequest [⟨LogRequest.propose⟩, ⟨LogRequest.prune⟩] where
  few := by decide
  put_eq := List.forall_iff_forall_mem.1 ⟨fun _ => rfl, fun _ => rfl⟩
  read_eq := congrArg readTag.bind (funext fun
    | 0 => rfl
    | 1 => rfl
    | _ + 2 => rfl)
  covers
    | .propose v => ⟨0, _, rfl, v, rfl⟩
    | .prune p => ⟨1, _, rfl, p, rfl⟩

instance : Faithful LogRequest := numbered_logRequest.faithful

lemma numbered_logIndication :
    Numbered LogIndication [⟨Function.uncurry LogIndication.mk⟩] where
  few := by decide
  put_eq := List.forall_iff_forall_mem.1 fun _ => List.append_assoc ..
  read_eq := congrArg readTag.bind (funext fun
    | 0 => (map_read_prod _).symm
    | _ + 1 => rfl)
  covers i := ⟨0, _, rfl, (i.position, i.value), rfl⟩

instance : Faithful LogIndication := numbered_logIndication.faithful

/-! ## Store items and messages -/

lemma record_storeItem : Record (Bytes × Option Bytes) (Function.uncurry StoreItem.mk) where
  put_eq _ := rfl
  read_eq := (map_read_prod _).symm
  covers i := ⟨(i.key, i.value), rfl⟩

instance : Faithful StoreItem := record_storeItem.faithful

instance : Canonical StoreItem := record_storeItem.canonical

lemma record_transferMetadata : Record (KeyRange × UInt64 × Bool)
    (Function.uncurry fun range => Function.uncurry (TransferMetadata.mk range)) where
  put_eq _ := List.append_assoc ..
  read_eq := by simp only [map_read_prod]; rfl
  covers m := ⟨(m.range, m.viewId, m.compressed), rfl⟩

instance : Faithful TransferMetadata := record_transferMetadata.faithful

instance : Canonical TransferMetadata := record_transferMetadata.canonical

lemma numbered_message :
    Numbered Message [⟨fun () => .heartbeat⟩, ⟨Function.uncurry Message.ping⟩,
      ⟨Function.uncurry Message.pong⟩, ⟨Function.uncurry Message.initiateTransfer⟩,
      ⟨Message.ack⟩, ⟨Message.requestToSend⟩, ⟨Function.uncurry Message.clearToSend⟩,
      ⟨Function.uncurry fun id => Function.uncurry (Message.data id)⟩, ⟨Message.allReceived⟩,
      ⟨Function.uncurry Message.forward⟩, ⟨Message.reply⟩] where
  few := by decide
  put_eq := List.forall_iff_forall_mem.1 ⟨fun _ => rfl, fun _ => List.append_assoc ..,
    fun _ => List.append_assoc .., fun _ => List.append_assoc .., fun _ => rfl, fun _ => rfl,
    fun _ => List.append_assoc ..,
    fun _ => (List.append_assoc ..).trans (List.append_assoc ..), fun _ => rfl,
    fun _ => List.append_assoc .., fun _ => rfl⟩
  read_eq := congrArg readTag.bind (funext fun
    | 0 => rfl
    | 1 => (map_read_prod _).symm
    | 2 => (map_read_prod _).symm
    | 3 => (map_read_prod _).symm
    | 4 => rfl
    | 5 => rfl
    | 6 => (map_read_prod _).symm
    | 7 => ((map_read_prod _).trans (congrArg _ (funext fun _ => map_read_prod _))).symm
    | 8 => rfl
    | 9 => (map_read_prod _).symm
    | 10 => rfl
    | _ + 11 => rfl)
  covers
    | .heartbeat => ⟨0, _, rfl, (), rfl⟩
    | .ping id timestamp => ⟨1, _, rfl, (id, timestamp), rfl⟩
    | .pong id timestamp => ⟨2, _, rfl, (id, timestamp), rfl⟩
    | .initiateTransfer id metadata => ⟨3, _, rfl, (id, metadata), rfl⟩
    | .ack id => ⟨4, _, rfl, id, rfl⟩
    | .requestToSend id => ⟨5, _, rfl, id, rfl⟩
    | .clearToSend id quota => ⟨6, _, rfl, (id, quota), rfl⟩
    | .data id payload isFinal => ⟨7, _, rfl, (id, payload, isFinal), rfl⟩
    | .allReceived id => ⟨8, _, rfl, id, rfl⟩
    | .forward operation replyTo => ⟨9, _, rfl, (operation, replyTo), rfl⟩
    | .reply answer => ⟨10, _, rfl, answer, rfl⟩

instance : Faithful Message := numbered_message.faithful

instance : Canonical Message :=
  numbered_message.canonical ⟨inferInstance, inferInstance, inferInstance, inferInstance,
    inferInstance, inferInstance, inferInstance, inferInstance, inferInstance, inferInstance,
    inferInstanceAs (Canonical Answer)⟩

lemma record_envelope : Record (NodeId × NodeId × Message)
    (Function.uncurry fun src => Function.uncurry (Envelope.mk src)) where
  put_eq _ := List.append_assoc ..
  read_eq := by simp only [map_read_prod]; rfl
  covers e := ⟨(e.src, e.dst, e.message), rfl⟩

instance : Faithful Envelope := record_envelope.faithful

instance : Canonical Envelope := record_envelope.canonical

/-! ## Decoding -/

/-- Decoding the form of a value and anything after it yields the value. The form has to be of a
length that a word holds, as any byte string of a program is. -/
def RoundTrips (α : Type) [Encode α] : Prop :=
  ∀ (x : α) (t : Bytes), (put x).length < 2 ^ 64 → decode (put x ++ t) = .ok x

/-- Bytes that decode begin with the form of the value. -/
def DecodesOwnForm (α : Type) [Encode α] : Prop :=
  ∀ (b : Bytes) (x : α), decode b = .ok x → put x <+: b

/-- A value that was decoded comes back when it is encoded and decoded again. -/
def DecodesAgain (α : Type) [Encode α] : Prop :=
  ∀ (b t : Bytes) (x : α), decode b = .ok x → decode (put x ++ t) = .ok x

section

variable {α : Type} [Encode α]

lemma decode_eq_ok {b : Bytes} {x : α} :
    decode b = .ok x ↔ ∃ rest, (read : Reader α) b = .ok (x, rest) := by
  unfold decode
  cases (read : Reader α) b with
  | error e => simp
  | ok p => obtain ⟨a, rest⟩ := p; simp

variable (α)

lemma roundTrips [Faithful α] : RoundTrips α := fun x t h =>
  decode_eq_ok.2 ⟨t, Faithful.survives x (.inl h) t⟩

lemma decodesOwnForm [Canonical α] : DecodesOwnForm α := fun b x h => by
  obtain ⟨rest, hread⟩ := decode_eq_ok.1 h
  exact ⟨rest, (Canonical.exact hread).symm⟩

lemma decodesAgain [Faithful α] : DecodesAgain α := fun b t x h => by
  obtain ⟨rest, hread⟩ := decode_eq_ok.1 h
  exact decode_eq_ok.2 ⟨t, Faithful.survives x (.inr ⟨b, rest, hread⟩) t⟩

end

/-- Every type of the protocol and of the log round-trips. An envelope has one form only; a view,
and what contains one, is stable after the first decoding. -/
theorem wire_forms_faithful :
    (RoundTrips Envelope ∧ RoundTrips LogValue ∧ RoundTrips Reconfigure ∧ RoundTrips LogRequest ∧
      RoundTrips LogIndication ∧ RoundTrips Operation ∧ RoundTrips Answer ∧ RoundTrips KeyRange ∧
      RoundTrips View ∧ RoundTrips NodeId ∧ RoundTrips StoreItem) ∧
    DecodesOwnForm Envelope ∧
    (DecodesAgain View ∧ DecodesAgain Reconfigure ∧ DecodesAgain LogValue ∧
      DecodesAgain LogRequest ∧ DecodesAgain LogIndication) :=
  ⟨⟨roundTrips _, roundTrips _, roundTrips _, roundTrips _, roundTrips _, roundTrips _,
      roundTrips _, roundTrips _, roundTrips _, roundTrips _, roundTrips _⟩,
    decodesOwnForm _,
    ⟨decodesAgain _, decodesAgain _, decodesAgain _, decodesAgain _, decodesAgain _⟩⟩

/-- A grant between two nodes, with a byte after it. -/
theorem wire_forms_faithful_at :
    (put (Envelope.mk ⟨"a", 1, none⟩ ⟨"b", 2, some 3⟩ (.clearToSend 7 512))).length < 2 ^ 64 ∧
    decode (put (Envelope.mk ⟨"a", 1, none⟩ ⟨"b", 2, some 3⟩ (.clearToSend 7 512)) ++ [9]) =
      .ok (Envelope.mk ⟨"a", 1, none⟩ ⟨"b", 2, some 3⟩ (.clearToSend 7 512)) := by
  have hlen : (put (Envelope.mk ⟨"a", 1, none⟩ ⟨"b", 2, some 3⟩
      (.clearToSend 7 512))).length < 2 ^ 64 := by decide +kernel
  exact ⟨hlen, wire_forms_faithful.1.1 _ [9] hlen⟩

end ReplicaRing.Wire
