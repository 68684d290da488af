import Mathlib.Algebra.BigOperators.Group.List.Basic
import Mathlib.Data.List.Flatten
import ReplicaRing.Proofs.BinaryForm
import ReplicaRing.Transfer.Page

/-!
Pages in data frames, whatever their compressor. Decompressing undoes compressing as long as the
raw length fits the four bytes it is written in. A lossless compressor makes of a longer page a
block that the written length is too small a limit for, so that it is refused and never read as
something else: a payload that was made from a page yields that page or nothing.
-/

namespace ReplicaRing

/-! ## Blocks -/

namespace BlockCompression

lemma size_copyBack (offset n : Nat) (out : Array UInt8) :
    (copyBack offset n out).size = out.size + n := by
  induction n generalizing out with
  | zero => rfl
  | succ n ih =>
    rw [copyBack, ih, Array.size_push]
    omega

/-- Where sequences can be read, another limit changes nothing unless it is too small for them. -/
lemma readSequences_limit {limit fuel : Nat} {input : Bytes} {out whole : Array UInt8}
    (h : readSequences limit fuel input out = .ok whole) (limit' : Nat) :
    out.size ≤ whole.size ∧ readSequences limit' fuel input out =
      if limit' < whole.size then .error .outputTooLong else .ok whole := by
  induction fuel generalizing input out with
  | zero => cases h
  | succ fuel ih =>
    cases input with
    | nil => cases h
    | cons token input =>
      -- the checks that do not depend on the limit have been passed
      simp only [readSequences, bind, Except.bind] at h ⊢
      split at h
      · cases h
      rename_i literals hliterals
      split at h
      · cases h
      rename_i hshort
      have hsize : (out ++ (literals.2.take literals.1).toArray).size = out.size + literals.1 := by
        simp [Nat.min_eq_left (Nat.not_lt.1 hshort)]
      rw [if_neg hshort]
      split at h
      · cases h
      split at h
      · cases h
        rw [hsize]
        exact ⟨by omega, rfl⟩
      · cases h
      · split at h
        · cases h
        rename_i repeated hrepeated
        split at h
        · cases h
        split at h
        · cases h
        rename_i hoffset
        obtain ⟨hle, hread⟩ := ih h
        rw [size_copyBack, hsize] at hle
        rw [if_neg hoffset, hread, hsize]
        refine ⟨by omega, ?_⟩
        by_cases hlimit : limit' < whole.size
        · rw [if_pos hlimit]
          split
          · rfl
          · split
            · rfl
            · rfl
        · rw [if_neg hlimit, if_neg (by omega), if_neg (by omega)]

lemma decompressBlock_limit {limit : Nat} {block raw : Bytes}
    (h : decompressBlock limit block = .ok raw) (limit' : Nat) :
    decompressBlock limit' block =
      if limit' < raw.length then .error .outputTooLong else .ok raw := by
  unfold decompressBlock at h ⊢
  cases hread : readSequences limit (block.length + 1) block #[] with
  | error e =>
    rw [hread] at h
    cases h
  | ok whole =>
    rw [hread] at h
    cases h
    rw [(readSequences_limit hread limit').2, Array.length_toList]
    split
    · rfl
    · rfl

namespace Compressor

variable {c : Compressor} {raw raw' : Bytes}

/-- The raw length in front of the block. -/
lemma pack_eq (c : Compressor) (raw : Bytes) :
    c.pack raw = littleEndian 4 raw.length ++ (c.pack raw).drop 4 := by
  have hfront := List.prefix_iff_eq_take.1 (c.prefixed raw)
  rw [length_littleEndian] at hfront
  rw [hfront, List.take_append_drop]

lemma pack_ne_nil (c : Compressor) (raw : Bytes) : c.pack raw ≠ [] := by
  intro hnil
  have hfront := (c.prefixed raw).length_le
  rw [length_littleEndian, hnil] at hfront
  exact absurd hfront (by decide)

/-- The raw length that is written is the true one up to its low four bytes. -/
lemma decompress_pack_eq (c : Compressor) (raw : Bytes) :
    decompress (c.pack raw) = decompressBlock (raw.length % 2 ^ 32) ((c.pack raw).drop 4) :=
  (congrArg decompress (c.pack_eq raw)).trans (decompress_append raw.length _)

/-- What is too long for its length is refused. -/
lemma Lossless.decompress_pack (hc : c.Lossless) (raw : Bytes) :
    decompress (c.pack raw) =
      if raw.length % 2 ^ 32 < raw.length then .error .outputTooLong else .ok raw :=
  (c.decompress_pack_eq raw).trans (decompressBlock_limit (hc raw) _)

/-- Different bytes are compressed differently, also where they are too long to be read. -/
lemma Lossless.pack_injective (hc : c.Lossless) (h : c.pack raw = c.pack raw') : raw = raw' := by
  have hread := decompressBlock_limit (hc raw) raw'.length
  have hread' := hc raw'
  rw [h, hread'] at hread
  split at hread
  · cases hread
  · exact (Except.ok.inj hread).symm

/-- Bytes are told apart by what they are compressed to if they are short or nothing is lost. -/
lemma pack_injective_of (h : c.Lossless ∨ raw.length < 2 ^ 32)
    (h' : c.Lossless ∨ raw'.length < 2 ^ 32) (heq : c.pack raw = c.pack raw') : raw = raw' := by
  rcases h with hc | hshort
  · exact hc.pack_injective heq
  · rcases h' with hc | hshort'
    · exact hc.pack_injective heq
    · have hread := c.unpacks raw hshort
      rw [heq, c.unpacks raw' hshort'] at hread
      exact (Except.ok.inj hread).symm

/-- A run of literals stands for all of them, however many they are. -/
theorem literal_lossless : literal.Lossless := by
  intro raw
  show decompressBlock raw.length ((littleEndian 4 raw.length ++ literalBlock raw).drop 4) = _
  rw [List.drop_left' (length_littleEndian 4 raw.length)]
  exact decompressBlock_literalBlock (Nat.le_refl _)

end Compressor

end BlockCompression

/-! ## Pages -/

namespace Page

open BlockCompression (Compressor)

/-- Items whose keys and values, and whose number, fit the words that lengths are written in. -/
def Fits (items : List StoreItem) : Prop :=
  items.length < 2 ^ 64 ∧
    ∀ i ∈ items, i.key.length < 2 ^ 64 ∧ ∀ v ∈ i.value, v.length < 2 ^ 64

lemma Fits.sublist {l l' : List StoreItem} (h : Fits l) (hl : l'.Sublist l) : Fits l' :=
  ⟨Nat.lt_of_le_of_lt hl.length_le h.1, fun i hi => h.2 i (hl.subset hi)⟩

lemma survives {items : List StoreItem} (h : Fits items) : Wire.Survives items :=
  Wire.survives_list h.1 fun i hi => Wire.survives_item (h.2 i hi).1 (h.2 i hi).2

/-! The binary form of a list is its length in eight bytes, and its items. -/

lemma length_put (items : List StoreItem) :
    (Wire.put items : Bytes).length = 8 + (items.flatMap Wire.put).length := by
  show (Wire.putLength items.length ++ items.flatMap Wire.put).length = _
  rw [List.length_append]
  exact congrArg (· + (items.flatMap Wire.put).length) (length_littleEndian 8 items.length)

lemma length_put_sublist {items items' : List StoreItem} (h : items'.Sublist items) :
    (Wire.put items' : Bytes).length ≤ (Wire.put items : Bytes).length := by
  have hitems := (h.flatMap Wire.put).length_le
  rw [length_put, length_put]
  omega

lemma length_put_item (i : StoreItem) :
    (Wire.put i : Bytes).length = 9 + i.key.length + i.value.elim 0 (8 + ·.length) := by
  show ((Wire.put i.key : Bytes) ++ Wire.put i.value).length = _
  rw [List.length_append, Wire.length_put_bytes]
  cases i.value with
  | none =>
    show 8 + i.key.length + 1 = _
    rw [Option.elim_none]
    omega
  | some v =>
    show 8 + i.key.length + ((Wire.put v : Bytes).length + 1) = _
    rw [Wire.length_put_bytes, Option.elim_some]
    omega

lemma length_put_singleton (i : StoreItem) :
    (Wire.put [i] : Bytes).length = 17 + i.key.length + i.value.elim 0 (8 + ·.length) := by
  rw [length_put, List.flatMap_singleton, length_put_item]
  omega

/-- What is written in so many bytes as a length can count fits. -/
lemma fits_of_length_put {items : List StoreItem} (h : (Wire.put items : Bytes).length < 2 ^ 64) :
    Fits items := by
  constructor
  · have hcount : items.length ≤ (items.flatMap (Wire.put : StoreItem → Bytes)).length := by
      rw [List.length_flatMap, ← List.length_map (fun i => (Wire.put i : Bytes).length)]
      refine List.length_le_sum_of_one_le _ fun n hn => ?_
      obtain ⟨i, -, rfl⟩ := List.mem_map.1 hn
      rw [length_put_item]
      omega
    rw [length_put] at h
    omega
  · intro i hi
    have hitem := length_put_sublist (List.singleton_sublist.2 hi)
    rw [length_put_singleton] at hitem
    refine ⟨by omega, fun v hv => ?_⟩
    rw [Option.mem_def.1 hv, Option.elim_some] at hitem
    omega

/-- The binary form of a list is never empty: it begins with the length. -/
lemma put_ne_nil (items : List StoreItem) : (Wire.put items : Bytes) ≠ [] := by
  show Wire.putLength items.length ++ items.flatMap Wire.put ≠ []
  simp [Wire.putLength, littleEndian]

lemma encodeWith_literal : encodeWith .literal = encode := rfl

lemma encodeWith_eq (c : Compressor) {items : List StoreItem} (h : items ≠ [])
    (compressed : Bool) :
    encodeWith c items compressed =
      if compressed then c.pack (Wire.put items) else Wire.put items := by
  unfold encodeWith
  rw [if_neg (by simpa using h)]

lemma encodeWith_ne_nil (c : Compressor) {items : List StoreItem} (h : items ≠ [])
    (compressed : Bool) : encodeWith c items compressed ≠ [] := by
  rw [encodeWith_eq c h]
  cases compressed with
  | false => exact put_ne_nil items
  | true => exact c.pack_ne_nil _

section

variable {payload raw : Bytes}

lemma decode_plain (h : payload ≠ []) :
    decode payload false = (Wire.decode payload).mapError .serialization := by
  have hpayload : payload.isEmpty = false := by simpa using h
  unfold decode
  rw [hpayload]
  rfl

lemma decode_unpacked (h : payload ≠ []) (hraw : BlockCompression.decompress payload = .ok raw) :
    decode payload true = (Wire.decode raw).mapError .serialization := by
  have hpayload : payload.isEmpty = false := by simpa using h
  unfold decode
  rw [hpayload, hraw]
  rfl

lemma decode_corrupt {e : BlockCompression.BlockError} (h : payload ≠ [])
    (herror : BlockCompression.decompress payload = .error e) :
    decode payload true = .error (.compression e.message) := by
  have hpayload : payload.isEmpty = false := by simpa using h
  unfold decode
  rw [hpayload, herror]
  rfl

end

/-- The binary form of a page is read back. -/
lemma decode_put {items : List StoreItem} (h : Fits items) :
    (Wire.decode (Wire.put items) : Except _ (List StoreItem)).mapError Fault.serialization =
      .ok items := by
  rw [Wire.decode_put (survives h)]
  rfl

section

variable {c : Compressor} {items items' : List StoreItem} {compressed : Bool}

lemma decode_encodeWith (c : Compressor) (hfits : Fits items)
    (hshort : compressed = true → (Wire.put items : Bytes).length < 2 ^ 32) :
    decode (encodeWith c items compressed) compressed = .ok items := by
  by_cases hne : items = []
  · subst hne
    rfl
  · have hpayload := encodeWith_ne_nil c hne compressed
    have hencode := encodeWith_eq c hne compressed
    cases compressed with
    | false =>
      rw [decode_plain hpayload, hencode]
      exact decode_put hfits
    | true =>
      rw [if_pos rfl] at hencode
      have hraw := c.unpacks _ (hshort rfl)
      rw [← hencode] at hraw
      rw [decode_unpacked hpayload hraw]
      exact decode_put hfits

/-- Items that can be told from their payload: it is not compressed, or without loss, or they are
few enough for their length in four bytes. -/
structure Legible (c : Compressor) (items : List StoreItem) (compressed : Bool) : Prop where
  fits : Fits items
  packed : compressed = true → c.Lossless ∨ (Wire.put items : Bytes).length < 2 ^ 32

lemma Legible.sublist (h : Legible c items compressed) (hl : items'.Sublist items) :
    Legible c items' compressed where
  fits := h.fits.sublist hl
  packed hcompressed := (h.packed hcompressed).imp_right
    (Nat.lt_of_le_of_lt (length_put_sublist hl))

/-- A payload that its items can be told from reads back as them, or not at all if they are too long
to be compressed. -/
theorem decode_encodeWith_or (h : Legible c items compressed) :
    decode (encodeWith c items compressed) compressed = .ok items ∨
      ∃ e, decode (encodeWith c items compressed) compressed = .error e := by
  by_cases hshort : compressed = true → (Wire.put items : Bytes).length < 2 ^ 32
  · exact .inl (decode_encodeWith c h.fits hshort)
  · obtain ⟨rfl, hlong⟩ := Classical.not_imp.1 hshort
    have hc := (h.packed rfl).resolve_right hlong
    by_cases hne : items = []
    · subst hne
      exact .inl rfl
    · have hencode := encodeWith_eq c hne true
      have hraw := hc.decompress_pack (Wire.put items)
      rw [if_pos rfl] at hencode
      rw [if_pos (by omega), ← hencode] at hraw
      exact .inr ⟨_, decode_corrupt (encodeWith_ne_nil c hne true) hraw⟩

/-- What is read from the payload of a page is that page. -/
lemma eq_of_decode_encodeWith (h : Legible c items compressed)
    (hdecode : decode (encodeWith c items compressed) compressed = .ok items') :
    items' = items := by
  rcases decode_encodeWith_or h with hok | ⟨e, herror⟩
  · rw [hok] at hdecode
    injection hdecode with hitems
    exact hitems.symm
  · rw [herror] at hdecode
    cases hdecode

/-- Different pages have different payloads. -/
theorem encodeWith_injective (h : Legible c items compressed) (h' : Legible c items' compressed)
    (heq : encodeWith c items compressed = encodeWith c items' compressed) : items = items' := by
  by_cases hne : items = []
  · subst hne
    by_contra hne'
    exact encodeWith_ne_nil c (Ne.symm hne') compressed heq.symm
  · have hne' : items' ≠ [] := by
      rintro rfl
      exact encodeWith_ne_nil c hne compressed heq
    have hput : (Wire.put items : Bytes) = Wire.put items' := by
      rw [encodeWith_eq c hne, encodeWith_eq c hne'] at heq
      cases compressed with
      | false => exact heq
      | true => exact Compressor.pack_injective_of (h.packed rfl) (h'.packed rfl) heq
    have hdecode := Wire.decode_put (survives h.fits)
    rw [hput, Wire.decode_put (survives h'.fits)] at hdecode
    injection hdecode with hitems
    exact hitems.symm

end

/-- A single item that is not too long makes a page, compressed or not. -/
lemma decode_encodeWith_singleton (c : Compressor) {i : StoreItem}
    (h : i.key.length + (i.value.getD []).length < 2 ^ 31) (compressed : Bool) :
    decode (encodeWith c [i] compressed) compressed = .ok [i] := by
  have hshort : (Wire.put [i] : Bytes).length < 2 ^ 32 := by
    rw [length_put_singleton]
    cases hv : i.value with
    | none =>
      rw [Option.elim_none]
      omega
    | some v =>
      rw [hv, Option.getD_some] at h
      rw [Option.elim_some]
      omega
  exact decode_encodeWith c (fits_of_length_put (by omega)) fun _ => hshort

end Page

end ReplicaRing
