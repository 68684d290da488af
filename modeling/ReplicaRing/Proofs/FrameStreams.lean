import Mathlib.Data.List.Basic
import Mathlib.Tactic.Common
import ReplicaRing.Proofs.WireForms
import ReplicaRing.Wire.Frame

/-!
Frames on a byte stream. A frame that is complete is taken off whole, whether its body decodes or
not, and a frame that is cut off reads as the end of the stream. So a connection that is cut
anywhere gives the envelopes of its complete frames in order, `serves_take`. Writing sets no limit
to a body and reading does: what was written for an envelope is read back exactly if the body is
within the limit, `readFrame_frame_iff`.
-/

namespace ReplicaRing.Wire

/-! ## One frame -/

/-- A body behind the header that belongs to it. -/
def framed (body : Bytes) : Bytes := (FrameHeader.ofBody body).toBytes ++ body

lemma length_toBytes (h : FrameHeader) : h.toBytes.length = FrameHeader.size := by
  show (littleEndian 4 h.length.toNat ++ littleEndian 4 h.checksum.toNat).length = _
  rw [List.length_append, length_littleEndian, length_littleEndian]
  rfl

lemma length_framed (body : Bytes) : (framed body).length = FrameHeader.size + body.length := by
  rw [framed, List.length_append, length_toBytes]

/-- A header survives its bytes. -/
lemma ofBytes_toBytes_append (h : FrameHeader) (stream : Bytes) :
    FrameHeader.ofBytes (h.toBytes ++ stream) = h := by
  have hbytes : h.toBytes ++ stream =
      littleEndian 4 h.length.toNat ++ (littleEndian 4 h.checksum.toNat ++ stream) :=
    List.append_assoc ..
  have hword : ∀ n : UInt32, UInt32.ofNat (ofLittleEndian (littleEndian 4 n.toNat)) = n := by
    intro n
    rw [ofLittleEndian_littleEndian, Nat.mod_eq_of_lt (by simpa using n.toNat_lt),
      UInt32.ofNat_toNat]
  unfold FrameHeader.ofBytes
  rw [hbytes, List.take_left' (length_littleEndian 4 _), List.drop_left' (length_littleEndian 4 _),
    List.take_left' (length_littleEndian 4 _), hword, hword]

/-- Reading goes by the header. -/
lemma readFrame_toBytes_append (h : FrameHeader) (stream : Bytes) :
    readFrame (h.toBytes ++ stream) =
      if maxFrameSize < h.length then
        (.error (.frameCorrupted (.tooLong h.length.toNat)), stream)
      else if stream.length < h.length.toNat then (.error (.io .endOfStream), [])
      else if crc32 (stream.take h.length.toNat) ≠ h.checksum then
        (.error (.frameCorrupted .checksum), stream.drop h.length.toNat)
      else
        ((decode (stream.take h.length.toNat)).mapError .serialization,
          stream.drop h.length.toNat) := by
  have hsize : ¬(h.toBytes ++ stream).length < FrameHeader.size := by
    rw [List.length_append, length_toBytes]
    omega
  unfold readFrame
  rw [if_neg hsize, ofBytes_toBytes_append, List.drop_left' (length_toBytes h)]

lemma readFrame_of_short {stream : Bytes} (h : stream.length < FrameHeader.size) :
    readFrame stream = (.error (.io .endOfStream), []) := if_pos h

lemma toNat_length_ofBody (body : Bytes) :
    (FrameHeader.ofBody body).length.toNat = body.length % 2 ^ 32 := UInt32.toNat_ofNat'

section

variable {body : Bytes}

lemma toNat_maxFrameSize : maxFrameSize.toNat = 2 ^ 26 := rfl

/-- The length that a header gives of a body within the limit is the true one. -/
lemma toNat_length_ofBody_of_le (h : body.length ≤ maxFrameSize.toNat) :
    (FrameHeader.ofBody body).length.toNat = body.length := by
  rw [toNat_maxFrameSize] at h
  rw [toNat_length_ofBody, Nat.mod_eq_of_lt (by omega)]

lemma not_maxFrameSize_lt (h : body.length ≤ maxFrameSize.toNat) :
    ¬maxFrameSize < (FrameHeader.ofBody body).length := by
  rw [UInt32.lt_iff_toNat_lt, toNat_length_ofBody_of_le h]
  omega

/-- A complete frame is taken off whole, and its body is decoded. -/
lemma readFrame_framed_append (h : body.length ≤ maxFrameSize.toNat) (rest : Bytes) :
    readFrame (framed body ++ rest) = ((decode body).mapError .serialization, rest) := by
  have hlong : ¬(body ++ rest).length < body.length := by
    rw [List.length_append]
    omega
  rw [framed, List.append_assoc, readFrame_toBytes_append, if_neg (not_maxFrameSize_lt h),
    toNat_length_ofBody_of_le h, if_neg hlong, List.take_left, List.drop_left]
  exact if_neg (not_not_intro rfl)

/-- A frame that is cut off reads as the end of the stream. -/
lemma readFrame_take_framed (h : body.length ≤ maxFrameSize.toNat) {n : Nat}
    (hn : n < (framed body).length) :
    readFrame ((framed body).take n) = (.error (.io .endOfStream), []) := by
  rw [length_framed] at hn
  by_cases hheader : n < FrameHeader.size
  · -- cut off inside the header
    refine readFrame_of_short ?_
    rw [List.length_take]
    omega
  · have hfront : (framed body).take n = (FrameHeader.ofBody body).toBytes ++
        body.take (n - FrameHeader.size) := by
      rw [framed, List.take_append, length_toBytes,
        List.take_of_length_le (by rw [length_toBytes]; omega)]
    have hshort : (body.take (n - FrameHeader.size)).length < body.length := by
      rw [List.length_take]
      omega
    rw [hfront, readFrame_toBytes_append, if_neg (not_maxFrameSize_lt h),
      toNat_length_ofBody_of_le h, if_pos hshort]

end

/-- A frame that was read was taken off the stream. -/
lemma length_lt_of_readFrame {stream rest : Bytes} {result : Except Fault Envelope}
    (h : readFrame stream = (result, rest)) (hresult : result ≠ .error (.io .endOfStream)) :
    rest.length < stream.length := by
  by_cases hsize : stream.length < FrameHeader.size
  · cases h.symm.trans (readFrame_of_short hsize)
    exact absurd rfl hresult
  · have hpos : 0 < FrameHeader.size := by decide
    have hbody : ∀ n, ((stream.drop FrameHeader.size).drop n).length < stream.length := by
      intro n
      simp only [List.length_drop]
      omega
    unfold readFrame at h
    rw [if_neg hsize] at h
    simp only at h
    split at h
    · cases h
      exact hbody 0
    · split at h
      · cases h
        exact absurd rfl hresult
      · split at h
        · cases h
          exact hbody _
        · cases h
          exact hbody _

/-! ## A connection -/

/-- What a connection does with what it reads. -/
inductive Turn where
  | forwarded (envelope : Envelope)
  /-- The frame has no envelope in it, and the next one follows. -/
  | skipped (cause : DecodeError)
  /-- The connection is over. -/
  | ended (fault : Fault)
  deriving DecidableEq

def Turn.envelope? : Turn → Option Envelope
  | forwarded e => some e
  | skipped _ | ended _ => none

/-- The turns of a connection on a stream, up to the one that ends it. -/
inductive Serves : Bytes → List Turn → Prop
  | forwarded {stream rest e turns} : readFrame stream = (.ok e, rest) → Serves rest turns →
      Serves stream (.forwarded e :: turns)
  | skipped {stream rest cause turns} : readFrame stream = (.error (.serialization cause), rest) →
      Serves rest turns → Serves stream (.skipped cause :: turns)
  | ended {stream rest fault} : readFrame stream = (.error fault, rest) →
      (∀ cause, fault ≠ .serialization cause) → Serves stream [.ended fault]

namespace Serves

variable {stream : Bytes} {turns turns' : List Turn}

/-- A stream leaves a connection no choice. -/
theorem unique (h : Serves stream turns) (h' : Serves stream turns') : turns = turns' := by
  induction h generalizing turns' with
  | forwarded hread _ ih =>
    cases h' with
    | forwarded hread' hrest =>
      cases hread.symm.trans hread'
      rw [ih hrest]
    | skipped hread' => cases hread.symm.trans hread'
    | ended hread' => cases hread.symm.trans hread'
  | skipped hread _ ih =>
    cases h' with
    | forwarded hread' => cases hread.symm.trans hread'
    | skipped hread' hrest =>
      cases hread.symm.trans hread'
      rw [ih hrest]
    | ended hread' hfault =>
      cases hread.symm.trans hread'
      exact absurd rfl (hfault _)
  | ended hread hfault =>
    cases h' with
    | forwarded hread' => cases hread.symm.trans hread'
    | skipped hread' =>
      cases hread.symm.trans hread'
      exact absurd rfl (hfault _)
    | ended hread' =>
      cases hread.symm.trans hread'
      rfl

lemma receiveUpTo_eq (h : Serves stream turns) {fuel : Nat} (hfuel : stream.length < fuel) :
    receiveUpTo fuel stream = turns.filterMap Turn.envelope? := by
  induction h generalizing fuel with
  | forwarded hread _ ih =>
    have hlt := length_lt_of_readFrame hread (by simp)
    obtain ⟨fuel, rfl⟩ := Nat.exists_eq_add_one.2 (by omega : 0 < fuel)
    rw [receiveUpTo, hread]
    exact congrArg (_ :: ·) (ih (by omega))
  | skipped hread _ ih =>
    have hlt := length_lt_of_readFrame hread (by simp)
    obtain ⟨fuel, rfl⟩ := Nat.exists_eq_add_one.2 (by omega : 0 < fuel)
    rw [receiveUpTo, hread]
    exact ih (by omega)
  | @ended _ _ fault hread hfault =>
    obtain ⟨fuel, rfl⟩ := Nat.exists_eq_add_one.2 (by omega : 0 < fuel)
    rw [receiveUpTo, hread]
    cases fault with
    | serialization cause => exact absurd rfl (hfault cause)
    | _ => rfl

/-- A server takes from a connection what its turns forward. -/
theorem receive_eq (h : Serves stream turns) : receive stream = turns.filterMap Turn.envelope? :=
  h.receiveUpTo_eq (Nat.lt_succ_self _)

end Serves

/-! ## A stream of frames -/

/-- Frame after frame, each with the body given. -/
def streamOf (bodies : List Bytes) : Bytes := bodies.flatMap framed

/-- What a connection does with a complete frame. -/
def turnOf (body : Bytes) : Turn :=
  match decode body with
  | .ok e => .forwarded e
  | .error cause => .skipped cause

lemma envelope?_turnOf (body : Bytes) : (turnOf body).envelope? = (decode body).toOption := by
  unfold turnOf
  cases (decode body : Except DecodeError Envelope) with
  | ok e => rfl
  | error cause => rfl

namespace Serves

variable {body rest : Bytes} {turns : List Turn}

/-- A complete frame takes one turn, whatever its body. -/
lemma framed_append (hbody : body.length ≤ maxFrameSize.toNat) (h : Serves rest turns) :
    Serves (framed body ++ rest) (turnOf body :: turns) := by
  have hread := readFrame_framed_append hbody rest
  unfold turnOf
  cases hdecode : (decode body : Except DecodeError Envelope) with
  | ok e =>
    rw [hdecode] at hread
    exact .forwarded hread h
  | error cause =>
    rw [hdecode] at hread
    exact .skipped hread h

lemma of_endOfStream {stream : Bytes} (h : readFrame stream = (.error (.io .endOfStream), rest)) :
    Serves stream [.ended (.io .endOfStream)] := .ended h (by simp)

end Serves

/-- A connection that is cut off anywhere forwards the envelopes of the frames that are complete,
skips those of them that hold none, and then meets the end of the stream: `k` frames lie before
the cut, and a connection's turns are these and the end. -/
theorem serves_take {bodies : List Bytes}
    (hbodies : ∀ body ∈ bodies, body.length ≤ maxFrameSize.toNat) (n : Nat) :
    ∃ k ≤ bodies.length,
      (∀ i < bodies.length, i < k ↔ (streamOf (bodies.take (i + 1))).length ≤ n) ∧
      Serves ((streamOf bodies).take n)
        ((bodies.take k).map turnOf ++ [.ended (.io .endOfStream)]) ∧
      receive ((streamOf bodies).take n) =
        (bodies.take k).filterMap fun body => (decode body).toOption := by
  suffices hturns : ∃ k ≤ bodies.length,
      (∀ i < bodies.length, i < k ↔ (streamOf (bodies.take (i + 1))).length ≤ n) ∧
      Serves ((streamOf bodies).take n)
        ((bodies.take k).map turnOf ++ [.ended (.io .endOfStream)]) by
    obtain ⟨k, hk, hcomplete, hserves⟩ := hturns
    refine ⟨k, hk, hcomplete, hserves, ?_⟩
    rw [hserves.receive_eq, List.filterMap_append, List.filterMap_map]
    simp only [Function.comp_def, envelope?_turnOf]
    exact List.append_nil _
  induction bodies generalizing n with
  | nil =>
    refine ⟨0, le_rfl, by simp, .of_endOfStream (readFrame_of_short ?_)⟩
    simp [streamOf, FrameHeader.size]
  | cons body bodies ih =>
    have hbody := hbodies body List.mem_cons_self
    have hstream : ∀ l, streamOf (body :: l) = framed body ++ streamOf l :=
      fun _ => List.flatMap_cons
    -- a frame lies before the cut if the first one and those behind it up to that frame do
    have hlen : ∀ i, (streamOf ((body :: bodies).take (i + 1))).length =
        (framed body).length + (streamOf (bodies.take i)).length := by
      intro i
      rw [List.take_succ_cons, hstream, List.length_append]
    by_cases hcut : n < (framed body).length
    · -- the cut lies in the first frame
      refine ⟨0, Nat.zero_le _, fun i _ => ?_, ?_⟩
      · rw [hlen]
        omega
      · rw [hstream, List.take_append_of_le_length (by omega)]
        exact .of_endOfStream (readFrame_take_framed hbody hcut)
    · -- the cut lies behind the first frame
      obtain ⟨k, hk, hcomplete, hserves⟩ :=
        ih (fun b hb => hbodies b (List.mem_cons_of_mem _ hb)) (n - (framed body).length)
      refine ⟨k + 1, Nat.succ_le_succ hk, fun i hi => ?_, ?_⟩
      · rw [hlen]
        cases i with
        | zero =>
          have hnone : (streamOf (bodies.take 0)).length = 0 := rfl
          omega
        | succ i =>
          have htail := hcomplete i (Nat.lt_of_succ_lt_succ hi)
          omega
      · rw [hstream, List.take_append, List.take_of_length_le (by omega), List.take_succ_cons,
          List.map_cons, List.cons_append]
        exact hserves.framed_append hbody

/-- A probe between two nodes. -/
def probe : Envelope := ⟨⟨"a", 1, none⟩, ⟨"b", 2, none⟩, .ping 5 9⟩

lemma length_put_probe : (put probe).length = 44 := by decide +kernel

lemma decode_put_probe : decode (put probe) = .ok probe :=
  decode_put (Faithful.survives probe (.inl (by rw [length_put_probe]; omega)))

/-- Between two probes stands a frame with a single byte in it, and behind them one more probe
that lacks its last byte. -/
theorem serves_take_probes :
    (∀ body ∈ [put probe, [255], put probe, put probe], body.length ≤ maxFrameSize.toNat) ∧
    Serves ((streamOf [put probe, [255], put probe, put probe]).take 164)
      [.forwarded probe, .skipped .endOfInput, .forwarded probe, .ended (.io .endOfStream)] ∧
    receive ((streamOf [put probe, [255], put probe, put probe]).take 164) = [probe, probe] := by
  have hbodies : ∀ body ∈ [put probe, [255], put probe, put probe],
      body.length ≤ maxFrameSize.toNat := by
    simp [length_put_probe, toNat_maxFrameSize]
  have hbyte : decode [255] = (.error .endOfInput : Except DecodeError Envelope) := rfl
  obtain ⟨k, hk, hcomplete, hserves, hreceive⟩ := serves_take hbodies 164
  have hthree : 2 < k := (hcomplete 2 (by decide)).2 (by
    simp [streamOf, length_framed, length_put_probe, FrameHeader.size])
  have hfour : ¬3 < k := fun h => by
    have hall := (hcomplete 3 (by decide)).1 h
    simp [streamOf, length_framed, length_put_probe, FrameHeader.size] at hall
  obtain rfl : k = 3 := by omega
  refine ⟨hbodies, ?_, ?_⟩
  · simpa [turnOf, decode_put_probe, hbyte] using hserves
  · simpa [decode_put_probe, hbyte, Except.toOption] using hreceive

/-! ## Writing and reading back -/

lemma frame_eq_framed (e : Envelope) : frame e = framed (put e) := rfl

/-- A body that is too long for a frame, and not so long that its length does not fit the header,
is refused on sight. -/
lemma readFrame_frame_of_tooLong {e : Envelope} (h : maxFrameSize.toNat < (put e).length)
    (hword : (put e).length < 2 ^ 32) (rest : Bytes) :
    readFrame (frame e ++ rest) =
      (.error (.frameCorrupted (.tooLong (put e).length)), put e ++ rest) := by
  have hlength := toNat_length_ofBody (put e)
  rw [Nat.mod_eq_of_lt hword] at hlength
  rw [frame_eq_framed, framed, List.append_assoc, readFrame_toBytes_append, hlength]
  exact if_pos (UInt32.lt_iff_toNat_lt.2 (by rwa [hlength]))

/-- What was written for an envelope is read back, all of it and no more, exactly if the body is
within the limit. A longer body is refused, and one that is too long for the header's length to
tell is not taken off whole. -/
theorem readFrame_frame_iff (e : Envelope) (rest : Bytes) :
    readFrame (frame e ++ rest) = (.ok e, rest) ↔ (put e).length ≤ maxFrameSize.toNat := by
  constructor
  · intro hread
    by_contra hlong
    have hmod := toNat_length_ofBody (put e)
    rw [frame_eq_framed, framed, List.append_assoc, readFrame_toBytes_append] at hread
    -- only `rest` is left over, so the header's length is the true one, and it is too long
    have hleft : (put e).length % 2 ^ 32 = (put e).length := by
      split at hread
      · cases hread
      · split at hread
        · cases hread
        · split at hread
          · cases hread
          · have hrest := congrArg (List.length ∘ Prod.snd) hread
            simp only [Function.comp, List.length_drop, List.length_append] at hrest
            omega
    rw [if_pos (UInt32.lt_iff_toNat_lt.2 (by omega))] at hread
    cases hread
  · intro h
    have hdecode : decode (put e) = .ok e := by
      rw [toNat_maxFrameSize] at h
      exact decode_put (Faithful.survives e (.inl (by omega)))
    rw [frame_eq_framed, readFrame_framed_append h, hdecode]
    rfl

/-- A page of as many zero bytes as a frame may have in all. -/
def zeroPage : Envelope :=
  ⟨⟨"a", 1, none⟩, ⟨"b", 2, none⟩, .data 1 (List.replicate maxFrameSize.toNat 0) true⟩

/-- A page that fills a frame leaves no room for the envelope around it: it is written and never
read. -/
theorem readFrame_frame_zeroPage :
    readFrame (frame zeroPage) ≠ (.ok zeroPage, []) ∧
    readFrame (frame zeroPage) = (.error (.frameCorrupted (.tooLong 67108909)), put zeroPage) := by
  have hlen : (put zeroPage).length = 67108909 := by
    have hnodes : (put (⟨"a", 1, none⟩ : NodeId) ++ put (⟨"b", 2, none⟩ : NodeId)).length = 24 := by
      decide +kernel
    have hfields : (putTag 7 ++ put (1 : UInt64)).length = 12 := by decide
    show (put (⟨"a", 1, none⟩ : NodeId) ++ put (⟨"b", 2, none⟩ : NodeId) ++
      (putTag 7 ++ put (1 : UInt64) ++ put (List.replicate maxFrameSize.toNat (0 : UInt8)) ++
        put true)).length = _
    rw [List.length_append, hnodes, List.length_append, List.length_append, hfields,
      length_put_bytes, List.length_replicate, toNat_maxFrameSize]
    rfl
  have hread := readFrame_frame_of_tooLong (e := zeroPage) (by rw [hlen]; decide)
    (by rw [hlen]; decide) []
  rw [hlen, List.append_nil, List.append_nil] at hread
  refine ⟨fun h => ?_, hread⟩
  cases hread.symm.trans h

end ReplicaRing.Wire
