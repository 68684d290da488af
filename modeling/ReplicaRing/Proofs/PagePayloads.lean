import Mathlib.Data.List.TakeWhile
import ReplicaRing.Proofs.PageForm

/-!
Payloads whichever way they are compressed. A block may repeat what came before it, and how it is
divided into sequences is the writer's choice. Decompressing a block yields the bytes it spells,
`decompress_packed`, so every choice of blocks that spell their bytes is a lossless compressor,
`ofBlocks`, and a page comes back from the payload it makes.
-/

namespace ReplicaRing

namespace BlockCompression

/-! ## Counts -/

/-- The halves of a token; a count of fifteen or more fills its half. -/
def token (literals repeated : Nat) : UInt8 :=
  UInt8.ofNat (16 * min literals 15 + min repeated 15)

lemma token_halves (literals repeated : Nat) :
    (token literals repeated).toNat / 16 = min literals 15 ∧
      (token literals repeated).toNat % 16 = min repeated 15 := by
  unfold token
  rw [UInt8.toNat_ofNat']
  omega

/-- The bytes that go on with a count whose half is full. -/
def overflow (n : Nat) : Bytes := if n < 15 then [] else extension (n - 15)

lemma readCount_overflow (n : Nat) (rest : Bytes) :
    readCount (min n 15) (overflow n ++ rest) = .ok (n, rest) := by
  unfold readCount overflow
  by_cases h : n < 15
  · rw [if_pos h, if_neg (by omega), Nat.min_eq_left (Nat.le_of_lt h), List.nil_append]
  · rw [if_neg h, if_pos (by omega), readExtension_extension]
    congr 2
    omega

/-! ## Sequences -/

/-- Literals, and the repetition that follows them. -/
structure Sequence where
  literals : Bytes
  /-- How far back the repeated bytes begin. -/
  offset : Nat
  /-- How many more bytes are repeated than the four of the shortest repetition. -/
  beyond : Nat

namespace Sequence

def bytes (s : Sequence) : Bytes :=
  token s.literals.length s.beyond :: (overflow s.literals.length ++
    (s.literals ++ (littleEndian 2 s.offset ++ overflow s.beyond)))

/-- Where the repetition begins if the literals begin at a position. -/
def middle (s : Sequence) (start : Nat) : Nat := start + s.literals.length

/-- Where the repetition ends. -/
def stop (s : Sequence) (start : Nat) : Nat := s.middle start + (s.beyond + 4)

/-- The sequence spells what stands from a position on: its literals stand there, and each of the
bytes that follow is the one that stands `offset` before it. -/
structure SpellsAt (s : Sequence) (raw : Bytes) (start : Nat) : Prop where
  literals : s.literals <+: raw.drop start
  offset_pos : 0 < s.offset
  offset_lt : s.offset < 2 ^ 16
  offset_le : s.offset ≤ s.middle start
  stop_le : s.stop start ≤ raw.length
  repeats : ∀ i, s.middle start ≤ i → i < s.stop start → raw[i]? = raw[i - s.offset]?

end Sequence

/-- Repeating bytes that recur extends a front of the bytes to a longer front, also where the
repetition runs into itself. -/
lemma copyBack_take {raw : Bytes} {offset start : Nat} (hpos : 0 < offset) (hle : offset ≤ start)
    (n : Nat) (hstop : start + n ≤ raw.length)
    (h : ∀ i, start ≤ i → i < start + n → raw[i]? = raw[i - offset]?) :
    copyBack offset n (raw.take start).toArray = (raw.take (start + n)).toArray := by
  induction n generalizing start with
  | zero => rfl
  | succ n ih =>
    have hsize : (raw.take start).toArray.size = start := by
      rw [List.size_toArray, List.length_take]
      omega
    obtain ⟨next, hnext⟩ : ∃ b, raw[start]? = some b :=
      ⟨_, List.getElem?_eq_getElem (by omega)⟩
    -- The byte that is copied stands `offset` before the end, inside the front.
    have hbyte : (raw.take start).toArray.getD (start - offset) 0 = next := by
      have hrecurs := h start (Nat.le_refl _) (by omega)
      rw [Array.getD_eq_getD_getElem?, List.getElem?_toArray, List.getElem?_take_of_lt (by omega),
        ← hrecurs, hnext, Option.getD_some]
    have hpush : (raw.take start).toArray.push next = (raw.take (start + 1)).toArray := by
      rw [List.push_toArray, List.take_add_one, hnext]
      rfl
    rw [copyBack, hsize, hbyte, hpush, ih (by omega) (by omega)
      (fun i hi hlt => h i (by omega) (by omega))]
    congr 2
    omega

/-- Literals that stand behind a front extend it. -/
lemma take_append_literals {raw literals : Bytes} {start : Nat}
    (h : literals <+: raw.drop start) :
    (raw.take start).toArray ++ literals.toArray =
      (raw.take (start + literals.length)).toArray := by
  rw [List.append_toArray, List.take_add, ← List.prefix_iff_eq_take.1 h]

/-- Reading a sequence extends a front of the bytes by what the sequence spells. -/
lemma readSequences_sequence {s : Sequence} {raw : Bytes} {start limit : Nat}
    (h : s.SpellsAt raw start) (hlimit : raw.length ≤ limit) (fuel : Nat) (rest : Bytes) :
    readSequences limit (fuel + 1) (s.bytes ++ rest) (raw.take start).toArray =
      readSequences limit fuel rest (raw.take (s.stop start)).toArray := by
  have hstop : s.middle start + (s.beyond + 4) ≤ raw.length := h.stop_le
  have hmiddle : start + s.literals.length = s.middle start := rfl
  have hsize : ∀ {n}, n ≤ raw.length → (raw.take n).toArray.size = n := fun hn => by
    rw [List.size_toArray, List.length_take]
    omega
  obtain ⟨hliterals, hrepeated⟩ := token_halves s.literals.length s.beyond
  have hoffset : (UInt8.ofNat (s.offset % 256)).toNat +
      256 * (UInt8.ofNat (s.offset / 256 % 256)).toNat = s.offset := by
    have := h.offset_lt
    simp only [UInt8.toNat_ofNat']
    omega
  have htail : (overflow s.literals.length ++
      (s.literals ++ (littleEndian 2 s.offset ++ overflow s.beyond))) ++ rest =
      overflow s.literals.length ++ (s.literals ++ (UInt8.ofNat (s.offset % 256) ::
        UInt8.ofNat (s.offset / 256 % 256) :: (overflow s.beyond ++ rest))) := by
    simp [littleEndian]
  have hcopy := copyBack_take h.offset_pos h.offset_le (s.beyond + 4) h.stop_le h.repeats
  -- The counts come out as they were written, and what is read stays a front of the bytes, so no
  -- check stops the reading.
  rw [Sequence.bytes, List.cons_append, htail, readSequences, hliterals, readCount_overflow]
  simp only [bind, Except.bind, List.length_append, List.take_left, List.drop_left,
    take_append_literals h.literals, hoffset, hrepeated, readCount_overflow]
  rw [hsize (show start ≤ raw.length by omega), hmiddle,
    hsize (show s.middle start ≤ raw.length by omega), if_neg (by omega), if_neg (by omega),
    if_neg (by omega), if_neg (by simpa using ⟨Nat.ne_of_gt h.offset_pos, h.offset_le⟩), hcopy]
  rfl

/-! ## Blocks -/

/-- Sequences, and the literals after the last of them. -/
structure Block where
  sequences : List Sequence
  last : Bytes

namespace Block

def bytes (b : Block) : Bytes :=
  b.sequences.flatMap Sequence.bytes ++
    (token b.last.length 0 :: (overflow b.last.length ++ b.last))

/-- The sequences and the last literals spell what stands from a position on. -/
inductive SpellsFrom (raw : Bytes) : Nat → Block → Prop where
  | last (start : Nat) : SpellsFrom raw start ⟨[], raw.drop start⟩
  | sequence {start : Nat} {s : Sequence} {rest : List Sequence} {last : Bytes}
      (head : s.SpellsAt raw start) (tail : SpellsFrom raw (s.stop start) ⟨rest, last⟩) :
      SpellsFrom raw start ⟨s :: rest, last⟩

/-- The block says the bytes. -/
def Spells (b : Block) (raw : Bytes) : Prop := SpellsFrom raw 0 b

lemma length_sequences_lt (b : Block) : b.sequences.length < b.bytes.length := by
  have hflat : b.sequences.length ≤ (b.sequences.flatMap Sequence.bytes).length := by
    induction b.sequences with
    | nil => exact Nat.le_refl 0
    | cons s rest ih =>
      rw [List.flatMap_cons, List.length_append, List.length_cons, Sequence.bytes,
        List.length_cons]
      omega
  rw [bytes, List.length_append, List.length_cons]
  omega

end Block

/-- The last literals bring the front to the whole. -/
lemma readSequences_last {raw : Bytes} {start limit : Nat} (hstart : start ≤ raw.length)
    (hlimit : raw.length ≤ limit) (fuel : Nat) :
    readSequences limit (fuel + 1) (Block.bytes ⟨[], raw.drop start⟩) (raw.take start).toArray =
      .ok raw.toArray := by
  have hsize : (raw.take start).toArray.size = start := by
    rw [List.size_toArray, List.length_take]
    omega
  have hwhole : (raw.take start).toArray ++ (raw.drop start).toArray = raw.toArray := by
    rw [List.append_toArray, List.take_append_drop]
  have hcount := readCount_overflow (raw.drop start).length (raw.drop start)
  rw [Block.bytes, List.flatMap_nil, List.nil_append, readSequences,
    (token_halves _ _).1, hcount]
  simp only [bind, Except.bind, List.take_length, List.drop_length, hsize, hwhole]
  rw [if_neg (Nat.lt_irrefl _), if_neg (by rw [List.length_drop]; omega)]

/-- Reading the sequences of a block from a front of the bytes yields the bytes. -/
lemma readSequences_block {raw : Bytes} {b : Block} {start limit fuel : Nat}
    (h : b.SpellsFrom raw start) (hstart : start ≤ raw.length) (hlimit : raw.length ≤ limit)
    (hfuel : b.sequences.length < fuel) :
    readSequences limit fuel b.bytes (raw.take start).toArray = .ok raw.toArray := by
  induction h generalizing fuel with
  | last start =>
    obtain ⟨fuel, rfl⟩ := Nat.exists_eq_add_of_lt hfuel
    exact readSequences_last hstart hlimit _
  | @sequence start s rest last head tail ih =>
    -- there is fuel for every sequence and for the last literals
    obtain ⟨fuel, rfl⟩ : ∃ n, fuel = n + 1 := ⟨fuel - 1, by omega⟩
    have hbytes : Block.bytes ⟨s :: rest, last⟩ = s.bytes ++ Block.bytes ⟨rest, last⟩ := by
      simp [Block.bytes]
    rw [hbytes, readSequences_sequence head hlimit]
    exact ih head.stop_le (by simpa using hfuel)

/-- A block stands for what it spells. -/
theorem decompressBlock_packed {raw : Bytes} {b : Block} (h : b.Spells raw) :
    decompressBlock raw.length b.bytes = .ok raw := by
  have hread : readSequences raw.length (b.bytes.length + 1) b.bytes #[] = .ok raw.toArray :=
    readSequences_block h (Nat.zero_le _) (Nat.le_refl _)
      (Nat.lt_succ_of_lt b.length_sequences_lt)
  exact congrArg (Except.map Array.toList) hread

/-- Decompressing yields what the block spells. -/
theorem decompress_packed {raw : Bytes} {b : Block} (h : b.Spells raw)
    (hlength : raw.length < 2 ^ 32) :
    decompress (littleEndian 4 raw.length ++ b.bytes) = .ok raw := by
  have hlimit : raw.length % UInt32.size = raw.length := Nat.mod_eq_of_lt hlength
  rw [decompress_append, hlimit]
  exact decompressBlock_packed h

/-! ## Compressors that choose blocks -/

namespace Compressor

/-- Any choice of blocks that spell the bytes. -/
def ofBlocks (choose : Bytes → Block) (h : ∀ raw, (choose raw).Spells raw) : Compressor where
  pack raw := littleEndian 4 raw.length ++ (choose raw).bytes
  prefixed _ := List.prefix_append _ _
  unpacks raw := decompress_packed (h raw)

lemma ofBlocks_lossless (choose : Bytes → Block) (h : ∀ raw, (choose raw).Spells raw) :
    (ofBlocks choose h).Lossless := fun raw => by
  show decompressBlock raw.length ((littleEndian 4 raw.length ++ (choose raw).bytes).drop 4) = _
  rw [List.drop_left' (length_littleEndian 4 raw.length)]
  exact decompressBlock_packed (h raw)

/-- Two bytes, a repetition of the second as far as it recurs, and the rest as literals, the last
five bytes always among them; one run of literals where that repeats too little. -/
def runBlock : Bytes → Block
  | a :: b :: rest =>
    let n := min (rest.takeWhile (· == b)).length (rest.length - 5)
    if 4 ≤ n then ⟨[⟨[a, b], 1, n - 4⟩], rest.drop n⟩ else ⟨[], a :: b :: rest⟩
  | raw => ⟨[], raw⟩

/-- In a run each byte is the one before it. -/
lemma getElem?_run {b : UInt8} {rest : Bytes} {i : Nat}
    (h : i < (rest.takeWhile (· == b)).length) : rest[i]? = (b :: rest)[i]? := by
  have hbyte : ∀ j, j < (rest.takeWhile (· == b)).length → rest[j]? = some b := fun j hj => by
    obtain ⟨tail, htail⟩ := List.takeWhile_prefix (· == b) (l := rest)
    have hmem := List.mem_takeWhile_imp (List.getElem_mem hj)
    rw [← htail, List.getElem?_append_left hj, List.getElem?_eq_getElem hj, eq_of_beq hmem]
  rw [hbyte i h]
  cases i with
  | zero => rfl
  | succ i => rw [List.getElem?_cons_succ, hbyte i (by omega)]

lemma runBlock_spells (raw : Bytes) : (runBlock raw).Spells raw := by
  fun_cases runBlock raw with
  | case1 a b rest n h =>
    have hrun : n ≤ (rest.takeWhile (· == b)).length := Nat.min_le_left _ _
    have hroom : n ≤ rest.length := Nat.le_trans (Nat.min_le_right _ _) (Nat.sub_le _ _)
    have hstop : Sequence.stop ⟨[a, b], 1, n - 4⟩ 0 = n + 2 := by
      simp only [Sequence.stop, Sequence.middle, List.length_cons, List.length_nil]
      omega
    have hlast : rest.drop n = (a :: b :: rest).drop (Sequence.stop ⟨[a, b], 1, n - 4⟩ 0) := by
      rw [hstop]
      rfl
    -- the repetition is of what stands one byte before it, and what it leaves is the rest
    refine .sequence ⟨List.prefix_append [a, b] rest, Nat.one_pos, by simp, ?_, ?_, ?_⟩
      (hlast ▸ .last _)
    · simp [Sequence.middle]
    · rw [hstop, List.length_cons, List.length_cons]
      omega
    · intro i hi hlt
      rw [hstop] at hlt
      have hi : 2 ≤ i := hi
      obtain ⟨i, rfl⟩ : ∃ j, i = j + 2 := ⟨i - 2, by omega⟩
      have hrecurs : rest[i]? = (b :: rest)[i]? := getElem?_run (by omega)
      exact hrecurs
  | case2 a b rest n h => exact .last 0
  | case3 raw h => exact .last 0

def run : Compressor := ofBlocks runBlock runBlock_spells

lemma run_lossless : run.Lossless := ofBlocks_lossless runBlock runBlock_spells

end Compressor

end BlockCompression

/-! ## Pages -/

namespace Page

open BlockCompression (Compressor)

/-- A page comes back from its payload, compressed or not and whatever the compressor, and only
the page without items has the empty payload. -/
theorem payload_reads_back (c : Compressor) (items : List StoreItem) (compressed : Bool) :
    (Fits items → (compressed = true → (Wire.put items : Bytes).length < 2 ^ 32) →
      decode (encode items compressed) compressed = .ok items ∧
        decode (encodeWith c items compressed) compressed = .ok items) ∧
      (encode items compressed = [] ↔ items = []) ∧
      (encodeWith c items compressed = [] ↔ items = []) := by
  have hempty : ∀ c, encodeWith c items compressed = [] ↔ items = [] := fun c =>
    ⟨fun h => by_contra fun hne => encodeWith_ne_nil c hne compressed h, fun h => by rw [h]; rfl⟩
  rw [← encodeWith_literal]
  exact ⟨fun hfits hshort =>
    ⟨decode_encodeWith .literal hfits hshort, decode_encodeWith c hfits hshort⟩,
    hempty .literal, hempty c⟩

/-- A page with a live key and a deleted one, its count and its lengths mostly zeros. -/
theorem payload_reads_back_run :
    Fits [⟨[97], some [49]⟩, ⟨[98], none⟩] ∧
      (Wire.put ([⟨[97], some [49]⟩, ⟨[98], none⟩] : List StoreItem) : Bytes).length = 37 ∧
      (encodeWith .run [⟨[97], some [49]⟩, ⟨[98], none⟩] true).length = 40 ∧
      decode (encode [⟨[97], some [49]⟩, ⟨[98], none⟩] true) true =
        .ok [⟨[97], some [49]⟩, ⟨[98], none⟩] ∧
      decode (encodeWith .run [⟨[97], some [49]⟩, ⟨[98], none⟩] true) true =
        .ok [⟨[97], some [49]⟩, ⟨[98], none⟩] := by
  have hfits : Fits [⟨[97], some [49]⟩, ⟨[98], none⟩] := by simp [Fits]
  have hlength : (Wire.put ([⟨[97], some [49]⟩, ⟨[98], none⟩] : List StoreItem) : Bytes).length =
      37 := by decide
  exact ⟨hfits, hlength, by decide,
    (payload_reads_back .run _ true).1 hfits fun _ => by rw [hlength]; decide⟩

end Page

end ReplicaRing
