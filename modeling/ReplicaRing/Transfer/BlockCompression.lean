import ReplicaRing.Bytes

/-!
LZ4 blocks behind their raw length. A block is a row of sequences: a token whose halves count
literals and repeated bytes, the literals, and how far back the repeated bytes begin. The last
sequence ends after its literals. Decompressing reads every block. Which block stands for some
bytes is up to the compressor, so whatever compresses works with any `Compressor`; the simplest
writes all of its input as one run of literals.
-/

namespace ReplicaRing.BlockCompression

inductive BlockError where
  /-- The input ends inside a sequence. -/
  | truncated
  /-- More bytes come out than the length allows. -/
  | outputTooLong
  /-- A repetition begins nowhere in the output. -/
  | badOffset
  deriving DecidableEq, Repr

def BlockError.message : BlockError → String
  | truncated => "expected another byte"
  | outputTooLong => "provided output is too small for the decompressed data"
  | badOffset => "the offset to copy is not contained in the decompressed buffer"

/-! ## Decompressing -/

/-- Adds bytes to a count up to and including the first that is not 255. -/
def readExtension : Nat → Bytes → Except BlockError (Nat × Bytes)
  | _, [] => .error .truncated
  | n, b :: rest =>
    if b = 255 then readExtension (n + 255) rest else .ok (n + b.toNat, rest)

/-- A count from its half of the token, extended if the half is full. -/
def readCount (half : Nat) (input : Bytes) : Except BlockError (Nat × Bytes) :=
  if half = 15 then readExtension 15 input else .ok (half, input)

/-- Repeats bytes from a fixed distance behind the end, one by one, so that a repetition may
run into what it has just written. -/
def copyBack (offset : Nat) : Nat → Array UInt8 → Array UInt8
  | 0, out => out
  | n + 1, out => copyBack offset n (out.push (out.getD (out.size - offset) 0))

/-- Reads sequences until the input ends after a run of literals. The fuel is more than the
number of tokens there can be. -/
def readSequences (limit : Nat) : Nat → Bytes → Array UInt8 → Except BlockError (Array UInt8)
  | 0, _, _ => .error .truncated
  | _ + 1, [], _ => .error .truncated
  | fuel + 1, token :: input, out => do
    let (literals, input) ← readCount (token.toNat / 16) input
    if input.length < literals then .error .truncated
    else if limit < out.size + literals then .error .outputTooLong
    else
      let out := out ++ (input.take literals).toArray
      match input.drop literals with
      | [] => .ok out
      | [_] => .error .truncated
      | low :: high :: input =>
        let offset := low.toNat + 256 * high.toNat
        let (repeated, input) ← readCount (token.toNat % 16) input
        let repeated := repeated + 4
        if limit < out.size + repeated then .error .outputTooLong
        else if offset = 0 || out.size < offset then .error .badOffset
        else readSequences limit fuel input (copyBack offset repeated out)

/-- What a block stands for, if it is not longer than the limit. -/
def decompressBlock (limit : Nat) (block : Bytes) : Except BlockError Bytes :=
  (readSequences limit (block.length + 1) block #[]).map Array.toList

/-- Reads the raw length in four bytes, then a block. The raw length is a limit and need not be
reached. -/
def decompress (input : Bytes) : Except BlockError Bytes :=
  if input.length < 4 then .error .truncated
  else decompressBlock (ofLittleEndian (input.take 4)) (input.drop 4)

/-- Of a raw length its low four bytes are the limit. -/
theorem decompress_append (n : Nat) (block : Bytes) :
    decompress (littleEndian 4 n ++ block) = decompressBlock (n % UInt32.size) block := by
  have hlength : (littleEndian 4 n).length = 4 := length_littleEndian 4 n
  unfold decompress
  rw [if_neg (by rw [List.length_append]; omega), List.take_left' hlength,
    List.drop_left' hlength, ofLittleEndian_littleEndian]

/-! ## Compressing -/

/-- A way to compress: the raw length is put in front, and decompressing undoes it for every raw
length that four bytes can hold. -/
structure Compressor where
  pack : Bytes → Bytes
  prefixed : ∀ raw, littleEndian 4 raw.length <+: pack raw
  unpacks : ∀ raw, raw.length < UInt32.size → decompress (pack raw) = .ok raw

/-- The block of longer bytes stands for them too, though their length in four bytes is too small
a limit for it. -/
def Compressor.Lossless (c : Compressor) : Prop :=
  ∀ raw, decompressBlock raw.length ((c.pack raw).drop 4) = .ok raw

/-! ## Literals alone -/

/-- What is left of a count after the fifteen in its token: bytes of 255 and a last one below. -/
def extension (n : Nat) : Bytes := List.replicate (n / 255) 255 ++ [UInt8.ofNat (n % 255)]

/-- A single run of literals. -/
def literalBlock (raw : Bytes) : Bytes :=
  if raw.length < 15 then UInt8.ofNat (16 * raw.length) :: raw
  else 0xf0 :: (extension (raw.length - 15) ++ raw)

/-- Reading an extended count takes all of the extension and nothing of what follows. -/
theorem readExtension_extension (n m : Nat) (rest : Bytes) :
    readExtension n (extension m ++ rest) = .ok (n + m, rest) := by
  have hreplicate : ∀ (q n : Nat), readExtension n
      (List.replicate q 255 ++ (UInt8.ofNat (m % 255) :: rest)) =
        .ok (n + 255 * q + m % 255, rest) := by
    intro q
    induction q with
    | zero =>
      intro n
      have hr : m % 255 < 255 := Nat.mod_lt _ (by omega)
      have hval : (UInt8.ofNat (m % 255)).toNat = m % 255 := by
        rw [UInt8.toNat_ofNat']
        omega
      have hne : UInt8.ofNat (m % 255) ≠ 255 := by
        intro h
        have := congrArg UInt8.toNat h
        rw [hval] at this
        simp at this
        omega
      simp [readExtension, hne, hval]
    | succ q ih =>
      intro n
      rw [List.replicate_succ, List.cons_append, readExtension, if_pos rfl, ih]
      congr 2
      omega
  unfold extension
  rw [List.append_assoc, List.singleton_append, hreplicate]
  congr 2
  omega

/-- A block of literals opens with their count. -/
theorem literalBlock_eq (raw : Bytes) : ∃ token block, literalBlock raw = token :: block ∧
    readCount (token.toNat / 16) block = .ok (raw.length, raw) := by
  unfold literalBlock
  by_cases hshort : raw.length < 15
  · rw [if_pos hshort]
    have htoken : (UInt8.ofNat (16 * raw.length)).toNat / 16 = raw.length := by
      rw [UInt8.toNat_ofNat']
      omega
    refine ⟨_, raw, rfl, ?_⟩
    rw [htoken, readCount, if_neg (by omega)]
  · rw [if_neg hshort]
    refine ⟨_, _, rfl, ?_⟩
    show readCount 15 _ = _
    rw [readCount, if_pos rfl, readExtension_extension]
    congr 2
    omega

/-- A block of literals stands for them. -/
theorem decompressBlock_literalBlock {limit : Nat} {raw : Bytes} (h : raw.length ≤ limit) :
    decompressBlock limit (literalBlock raw) = .ok raw := by
  obtain ⟨token, block, hblock, hcount⟩ := literalBlock_eq raw
  have hlimit : ¬ limit < raw.length := Nat.not_lt.2 h
  unfold decompressBlock
  rw [hblock]
  simp [readSequences, hcount, hlimit, bind, Except.bind, Except.map]

/-- One run of literals. -/
def Compressor.literal : Compressor where
  pack raw := littleEndian 4 raw.length ++ literalBlock raw
  prefixed _ := List.prefix_append _ _
  unpacks raw h := by
    rw [decompress_append, Nat.mod_eq_of_lt h]
    exact decompressBlock_literalBlock (Nat.le_refl _)

end ReplicaRing.BlockCompression
