import MiniModem.Qmi.Codec
import Mathlib.Algebra.BigOperators.Group.List.Basic

/-!
# Decoding undoes encoding

What the codec writes is described once, as plain bytes (`Header.bytes`, `Tlv.bytes`), and each
function of the codec is related to these bytes: the encoders append them (`encodeMessage_eq`), the
decoders accept exactly them (`decodeTlv_iff`, `decodeTlvs_iff`, `decodeHeader_bytes`). The loop over the
payload goes by induction on its fuel. The two directions meet in `decodeMessage_iff`: `decodeMessage`
accepts the encodings of messages whose `payloadLength` is the size of their TLVs, and nothing else.
-/

namespace MiniModem.Qmi
open Lib

/-- The ten bytes of a header. -/
def Header.bytes (header : Header) : Bytes :=
  [header.version, header.flags,
    lowByte header.transactionId, highByte header.transactionId,
    lowByte header.serviceId, highByte header.serviceId,
    lowByte header.messageId, highByte header.messageId,
    lowByte header.payloadLength, highByte header.payloadLength]

/-- The bytes `encodeTlv` writes for a TLV. -/
def Tlv.bytes (tlv : Tlv) : Bytes :=
  [lowByte tlv.type, highByte tlv.type,
    lowByte (UInt16.ofNat tlv.value.length), highByte (UInt16.ofNat tlv.value.length)] ++ tlv.value

/-- The bytes of a payload. -/
def payloadBytes (tlvs : List Tlv) : Bytes := tlvs.flatMap Tlv.bytes

/-- The number of bytes the TLVs of a message take, before any narrowing. -/
def payloadSize (tlvs : List Tlv) : ℕ := (tlvs.map fun tlv => 4 + tlv.value.length).sum

/-- A header has ten bytes. -/
@[simp] lemma Header.bytes_length (header : Header) : header.bytes.length = 10 := rfl

/-- A TLV has four bytes more than its value. -/
@[simp] lemma Tlv.bytes_length (tlv : Tlv) : tlv.bytes.length = 4 + tlv.value.length := by
  simp [Tlv.bytes]
  omega

/-- The first TLV counts with its four bytes. -/
@[simp] lemma payloadSize_cons (tlv : Tlv) (tlvs : List Tlv) :
    payloadSize (tlv :: tlvs) = 4 + tlv.value.length + payloadSize tlvs := by
  simp [payloadSize]

/-- The sizes of two lists of TLVs add up. -/
@[simp] lemma payloadSize_append (tlvs more : List Tlv) :
    payloadSize (tlvs ++ more) = payloadSize tlvs + payloadSize more := by
  simp [payloadSize]

/-- No TLVs have no bytes. -/
@[simp] lemma payloadBytes_nil : payloadBytes [] = [] := rfl

/-- The first TLV stands first. -/
@[simp] lemma payloadBytes_cons (tlv : Tlv) (tlvs : List Tlv) :
    payloadBytes (tlv :: tlvs) = tlv.bytes ++ payloadBytes tlvs := rfl

/-- The payload is as long as its size says. -/
@[simp] lemma payloadBytes_length (tlvs : List Tlv) :
    (payloadBytes tlvs).length = payloadSize tlvs := by
  induction tlvs with
  | nil => rfl
  | cons tlv tlvs ih => simp [ih]

/-- A TLV of a payload is no longer than the payload. -/
lemma value_length_lt {tlvs tlv} (mem : tlv ∈ tlvs) : tlv.value.length + 4 ≤ payloadSize tlvs := by
  obtain ⟨before, after, rfl⟩ := List.append_of_mem mem
  simp
  omega

/-- `encodeTlv` appends the bytes of the TLV. -/
lemma encodeTlv_buffer (writer : ByteWriter) (tlv : Tlv) :
    (encodeTlv writer tlv).buffer = writer.buffer ++ tlv.bytes := by
  simp [encodeTlv, ByteWriter.writeU16, ByteWriter.writeBytes, Tlv.bytes]

/-- All TLVs are appended in their order. -/
lemma foldl_encodeTlv (tlvs : List Tlv) (writer : ByteWriter) :
    (tlvs.foldl encodeTlv writer).buffer = writer.buffer ++ payloadBytes tlvs := by
  induction tlvs generalizing writer with
  | nil => simp
  | cons tlv tlvs ih => simp [ih, encodeTlv_buffer]

/-- `encodeHeader` appends the bytes of the header. -/
lemma encodeHeader_buffer (writer : ByteWriter) (header : Header) :
    (encodeHeader writer header).buffer = writer.buffer ++ header.bytes := by
  simp [encodeHeader, ByteWriter.writeU8, ByteWriter.writeU16, Header.bytes]

/-- The encoder writes the header, with the narrowed payload size, and the TLVs one after another. -/
lemma encodeMessage_eq (m : Message) :
    encodeMessage m =
      { m.header with payloadLength := UInt16.ofNat (payloadSize m.tlvs) }.bytes ++
        payloadBytes m.tlvs := by
  simp [encodeMessage, ByteWriter.writeBytes, encodeHeader_buffer, foldl_encodeTlv]

/-- A frame is the header and the payload. -/
@[simp] lemma encodeMessage_length (m : Message) :
    (encodeMessage m).length = 10 + payloadSize m.tlvs := by
  simp [encodeMessage_eq]

/-- `decodeTlv` takes the bytes of one TLV off the front, and takes nothing else. -/
lemma decodeTlv_iff {b tlv rest} :
    decodeTlv ⟨b⟩ = some (tlv, ⟨rest⟩) ↔ tlv.value.length < 65536 ∧ b = tlv.bytes ++ rest := by
  refine ⟨?_, ?_⟩
  · intro e
    match b with
    | [] | [_] | [_, _] | [_, _, _] => simp [decodeTlv, ByteReader.readU16] at e
    | t0 :: t1 :: l0 :: l1 :: tail =>
      by_cases short : tail.length < (ofBytes l0 l1).toNat
      · simp [decodeTlv, ByteReader.readU16, ByteReader.remaining, short] at e
      · simp [decodeTlv, ByteReader.readU16, ByteReader.remaining, ByteReader.readBytes,
          short] at e
        obtain ⟨rfl, rfl⟩ := e
        have lt := (ofBytes l0 l1).toNat_lt
        have size : (tail.take (ofBytes l0 l1).toNat).length = (ofBytes l0 l1).toNat := by
          simp
          omega
        refine ⟨by rw [size]; exact lt, ?_⟩
        simp only [Tlv.bytes, size, UInt16.ofNat_toNat, lowByte_ofBytes, highByte_ofBytes]
        simp
  · rintro ⟨fits, rfl⟩
    have length : (UInt16.ofNat tlv.value.length).toNat = tlv.value.length := by
      rw [UInt16.toNat_ofNat']
      omega
    simp [decodeTlv, Tlv.bytes, ByteReader.readU16, ByteReader.remaining, ByteReader.readBytes,
      length]

/-- A TLV uses up at least its four length and type bytes. -/
lemma decodeTlv_shrinks {b tlv rest} (e : decodeTlv ⟨b⟩ = some (tlv, ⟨rest⟩)) :
    rest.length + 4 ≤ b.length := by
  obtain ⟨-, rfl⟩ := decodeTlv_iff.mp e
  simp
  omega

/-- Nothing is left, and the loop ends. -/
lemma decodeTlvs_empty {fuel : ℕ} (acc tlvs : List Tlv) :
    decodeTlvs fuel ⟨[]⟩ acc = (true, tlvs) ↔
      ∃ more, tlvs = acc ++ more ∧ [] = payloadBytes more ∧
        ∀ tlv ∈ more, tlv.value.length < 65536 := by
  have done : decodeTlvs fuel ⟨[]⟩ acc = (true, acc) := by
    cases fuel with
    | zero => rfl
    | succ fuel => simp [decodeTlvs, ByteReader.remaining]
  rw [done]
  refine ⟨?_, ?_⟩
  · intro e
    cases e
    exact ⟨[], by simp⟩
  · intro split
    obtain ⟨more, rfl, e, -⟩ := split
    cases more with
    | nil => simp
    | cons tlv more => simp [Tlv.bytes] at e

/-- One turn of the loop. -/
lemma decodeTlvs_cons {fuel b acc tlvs} (some : b ≠ []) :
    decodeTlvs (fuel + 1) ⟨b⟩ acc = (true, tlvs) ↔
      ∃ tlv rest, decodeTlv ⟨b⟩ = .some (tlv, ⟨rest⟩) ∧
        decodeTlvs fuel ⟨rest⟩ (acc ++ [tlv]) = (true, tlvs) := by
  rw [decodeTlvs, ByteReader.remaining, if_pos (List.length_pos_iff.mpr some)]
  rcases d : decodeTlv ⟨b⟩ with _ | ⟨tlv, ⟨rest⟩⟩
  · simp
  · simp

/-- The loop accepts a payload exactly when it is a concatenation of complete TLVs. -/
lemma decodeTlvs_iff {fuel b acc tlvs} (enough : b.length ≤ fuel) :
    decodeTlvs fuel ⟨b⟩ acc = (true, tlvs) ↔
      ∃ more, tlvs = acc ++ more ∧ b = payloadBytes more ∧
        ∀ tlv ∈ more, tlv.value.length < 65536 := by
  induction fuel generalizing b acc with
  | zero =>
    obtain rfl : b = [] := List.length_eq_zero_iff.mp (by omega)
    exact decodeTlvs_empty acc tlvs
  | succ fuel ih =>
    rcases eq_or_ne b [] with rfl | some
    · exact decodeTlvs_empty acc tlvs
    · rw [decodeTlvs_cons some]
      refine ⟨?_, ?_⟩
      · intro turn
        obtain ⟨tlv, rest, d, e⟩ := turn
        have shrinks := decodeTlv_shrinks d
        obtain ⟨fits, eq⟩ := decodeTlv_iff.mp d
        obtain ⟨more, rfl, rfl, fit⟩ := (ih (by omega)).mp e
        exact ⟨tlv :: more, by simp, eq, List.forall_mem_cons.mpr ⟨fits, fit⟩⟩
      · intro split
        obtain ⟨more, rfl, rfl, fit⟩ := split
        cases more with
        | nil => exact absurd rfl some
        | cons tlv more =>
          obtain ⟨fits, fit⟩ := List.forall_mem_cons.mp fit
          have d : decodeTlv ⟨payloadBytes (tlv :: more)⟩ = .some (tlv, ⟨payloadBytes more⟩) :=
            decodeTlv_iff.mpr ⟨fits, rfl⟩
          have shrinks := decodeTlv_shrinks d
          exact ⟨tlv, _, d, (ih (by omega)).mpr ⟨more, by simp, rfl, fit⟩⟩

/-- The bytes of a header are read back as the header. -/
lemma decodeHeader_bytes (header out : Header) (rest : Bytes) :
    decodeHeader ⟨header.bytes ++ rest⟩ out = (some ⟨rest⟩, header) := by
  simp [decodeHeader, Header.bytes, ByteReader.readU8, ByteReader.readU16]

/-- The header is read from ten bytes, and fails on fewer. -/
lemma decodeHeader_cases (b : Bytes) (out : Header) :
    (∃ (header : Header) (rest : Bytes), b = header.bytes ++ rest) ∨
      (b.length < 10 ∧ (decodeHeader ⟨b⟩ out).1 = none) := by
  match b with
  | v :: f :: t0 :: t1 :: s0 :: s1 :: m0 :: m1 :: l0 :: l1 :: rest =>
    refine .inl ⟨⟨v, f, ofBytes t0 t1, ofBytes s0 s1, ofBytes m0 m1, ofBytes l0 l1⟩, rest, ?_⟩
    simp [Header.bytes]
  | [] | [_] | [_, _] | [_, _, _] | [_, _, _, _] | [_, _, _, _, _] | [_, _, _, _, _, _]
  | [_, _, _, _, _, _, _] | [_, _, _, _, _, _, _, _] | [_, _, _, _, _, _, _, _, _] =>
    refine .inr ⟨?_, ?_⟩
    · simp
    · simp [decodeHeader, ByteReader.readU8, ByteReader.readU16]

/-- After a header and as many bytes as it announces, the outcome is that of the loop on these bytes. -/
lemma decodeMessage_complete {header : Header} {payload : Bytes}
    (complete : payload.length = header.payloadLength.toNat) (rest : Bytes) (out : Message) :
    decodeMessage (header.bytes ++ payload ++ rest) out =
      ((decodeTlvs payload.length ⟨payload⟩ []).1,
        ⟨header, (decodeTlvs payload.length ⟨payload⟩ []).2⟩) := by
  have taken : (payload ++ rest).take header.payloadLength.toNat = payload := by
    rw [← complete, List.take_left]
  have enough : ¬ (payload ++ rest).length < header.payloadLength.toNat := by
    rw [List.length_append]
    omega
  rw [List.append_assoc]
  simp only [decodeMessage, decodeHeader_bytes, ByteReader.remaining, ByteReader.readBytes, enough,
    if_false, taken]

/-- Any other input is rejected. -/
lemma decodeMessage_cases (b : Bytes) (out : Message) :
    (∃ (header : Header) (payload rest : Bytes), b = header.bytes ++ payload ++ rest ∧
        payload.length = header.payloadLength.toNat) ∨
      (decodeMessage b out).1 = false := by
  rcases decodeHeader_cases b out.header with ⟨header, rest, rfl⟩ | ⟨-, none⟩
  · by_cases short : rest.length < header.payloadLength.toNat
    · exact .inr (by simp [decodeMessage, decodeHeader_bytes, ByteReader.remaining, short])
    · refine .inl ⟨header, rest.take header.payloadLength.toNat,
        rest.drop header.payloadLength.toNat, by simp, ?_⟩
      rw [List.length_take]
      omega
  · rcases d : decodeHeader ⟨b⟩ out.header with ⟨_ | reader, header⟩
    · exact .inr (by simp [decodeMessage, d])
    · rw [d] at none
      cases none

/-- A message that fits a frame and whose header says so. -/
def Message.WellSized (m : Message) : Prop :=
  m.header.payloadLength.toNat = payloadSize m.tlvs ∧ payloadSize m.tlvs ≤ 65535

/-- The encoding of a message whose `payloadLength` is right. -/
lemma Message.WellSized.encode_eq {m : Message} (sized : m.WellSized) :
    encodeMessage m = m.header.bytes ++ payloadBytes m.tlvs := by
  have narrow : UInt16.ofNat (payloadSize m.tlvs) = m.header.payloadLength := by
    rw [← sized.1, UInt16.ofNat_toNat]
  rw [encodeMessage_eq, narrow]

/-- `decodeMessage` accepts the encodings of well-sized messages, followed by anything, and gives the
message back. -/
theorem decodeMessage_iff {b : Bytes} {out m : Message} :
    decodeMessage b out = (true, m) ↔ m.WellSized ∧ ∃ rest, b = encodeMessage m ++ rest := by
  refine ⟨?_, ?_⟩
  · intro e
    rcases decodeMessage_cases b out with ⟨header, payload, rest, rfl, complete⟩ | rejected
    · rw [decodeMessage_complete complete, Prod.mk.injEq] at e
      obtain ⟨ok, rfl⟩ := e
      have accepted : decodeTlvs payload.length ⟨payload⟩ [] =
          (true, (decodeTlvs payload.length ⟨payload⟩ []).2) := Prod.ext ok rfl
      obtain ⟨tlvs, eq, split, fit⟩ := (decodeTlvs_iff le_rfl).mp accepted
      rw [eq, List.nil_append]
      have size : payloadSize tlvs = header.payloadLength.toNat := by
        rw [← payloadBytes_length, ← split, complete]
      have sized : (Message.mk header tlvs).WellSized := by
        have lt := header.payloadLength.toNat_lt
        exact ⟨size.symm, by simp only; omega⟩
      exact ⟨sized, rest, by rw [sized.encode_eq, split]⟩
    · rw [e] at rejected
      cases rejected
  · intro both
    obtain ⟨sized, rest, rfl⟩ := both
    have complete : (payloadBytes m.tlvs).length = m.header.payloadLength.toNat := by
      rw [payloadBytes_length, sized.1]
    have loop : decodeTlvs (payloadBytes m.tlvs).length ⟨payloadBytes m.tlvs⟩ [] =
        (true, m.tlvs) := by
      refine (decodeTlvs_iff le_rfl).mpr ⟨m.tlvs, rfl, rfl, ?_⟩
      intro tlv mem
      have := value_length_lt mem
      have := sized.2
      omega
    rw [sized.encode_eq, decodeMessage_complete complete, loop]

/-- A well-sized message is determined by its encoding, even with something after it. -/
lemma Message.WellSized.encode_inj {m m' : Message} {rest rest' : Bytes} (sized : m.WellSized)
    (sized' : m'.WellSized) (e : encodeMessage m ++ rest = encodeMessage m' ++ rest') : m = m' := by
  have d : decodeMessage (encodeMessage m ++ rest) {} = (true, m) :=
    decodeMessage_iff.mpr ⟨sized, rest, rfl⟩
  have d' : decodeMessage (encodeMessage m ++ rest) {} = (true, m') :=
    decodeMessage_iff.mpr ⟨sized', rest', e⟩
  rw [d] at d'
  exact (Prod.mk.inj d').2

/-- The message the decoder gives back for `m`: the payload length is filled in. -/
def Message.filled (m : Message) : Message :=
  { m with header := { m.header with payloadLength := UInt16.ofNat (payloadSize m.tlvs) } }

/-- The payload length that is written does not depend on that of the header. -/
@[simp] lemma encodeMessage_filled (m : Message) : encodeMessage m.filled = encodeMessage m := by
  simp [encodeMessage_eq, Message.filled]

/-- A payload that fits into 16 bits has its size in the header. -/
lemma Message.filled_wellSized {m : Message} (fits : payloadSize m.tlvs ≤ 65535) :
    m.filled.WellSized := by
  refine ⟨?_, fits⟩
  show (UInt16.ofNat (payloadSize m.tlvs)).toNat = payloadSize m.tlvs
  rw [UInt16.toNat_ofNat']
  omega

/-- A complete payload is accepted exactly when it is a concatenation of complete TLVs. -/
lemma decodeMessage_payload_iff {header : Header} {payload rest : Bytes} {out : Message}
    (complete : payload.length = header.payloadLength.toNat) :
    (decodeMessage (header.bytes ++ payload ++ rest) out).1 = true ↔
      ∃ tlvs : List Tlv, (∀ tlv ∈ tlvs, tlv.value.length < 65536) ∧ payload = payloadBytes tlvs := by
  rw [decodeMessage_complete complete]
  refine ⟨?_, ?_⟩
  · intro ok
    obtain ⟨tlvs, -, eq, fit⟩ := (decodeTlvs_iff le_rfl).mp (Prod.ext ok rfl)
    exact ⟨tlvs, fit, eq⟩
  · intro split
    obtain ⟨tlvs, fit, eq⟩ := split
    have accepted : decodeTlvs payload.length ⟨payload⟩ [] = (true, tlvs) :=
      (decodeTlvs_iff le_rfl).mpr ⟨tlvs, rfl, eq, fit⟩
    rw [accepted]

/-- `decodeMessage` accepts exactly the image of `encodeMessage`, and the two are inverse. -/
theorem decodeMessage_encodeMessage_inverse :
    -- acceptance, whatever the out-parameter held before
    (∀ (b : Bytes) (out m : Message), decodeMessage b out = (true, m) ↔
      m.header.payloadLength.toNat = (m.tlvs.map fun tlv => 4 + tlv.value.length).sum ∧
        (m.tlvs.map fun tlv => 4 + tlv.value.length).sum ≤ 65535 ∧
        ∃ rest, b = encodeMessage m ++ rest) ∧
    -- decoding undoes encoding
    (∀ (m out : Message) (rest : Bytes), payloadSize m.tlvs ≤ 65535 →
      decodeMessage (encodeMessage m ++ rest) out = (true, m.filled)) ∧
    -- encoding undoes decoding
    (∀ (b : Bytes) (out m : Message), decodeMessage b out = (true, m) →
      encodeMessage m = b.take (10 + m.header.payloadLength.toNat)) ∧
    -- no two messages with a correct payload length share an encoding
    (∀ m m' : Message, m.WellSized → m'.WellSized → encodeMessage m = encodeMessage m' → m = m') ∧
    -- neither the bytes after the message nor the out-parameter matter
    (∀ (b b' : Bytes) (out out' m : Message), decodeMessage b out = (true, m) →
      b'.take (10 + m.header.payloadLength.toNat) = b.take (10 + m.header.payloadLength.toNat) →
        decodeMessage b' out' = (true, m)) ∧
    -- which payloads are accepted
    (∀ (header : Header) (payload rest : Bytes) (out : Message),
      payload.length = header.payloadLength.toNat →
        ((decodeMessage (header.bytes ++ payload ++ rest) out).1 = true ↔
          ∃ tlvs : List Tlv, (∀ tlv ∈ tlvs, tlv.value.length < 65536) ∧
            payload = payloadBytes tlvs)) := by
  have reencode : ∀ (b : Bytes) (out m : Message), decodeMessage b out = (true, m) →
      encodeMessage m = b.take (10 + m.header.payloadLength.toNat) := by
    intro b out m e
    obtain ⟨sized, rest, rfl⟩ := decodeMessage_iff.mp e
    rw [sized.1, ← encodeMessage_length, List.take_left]
  refine ⟨?_, ?_, reencode, ?_, ?_, ?_⟩
  · intro b out m
    rw [decodeMessage_iff, Message.WellSized, and_assoc]
    rfl
  · intro m out rest fits
    refine decodeMessage_iff.mpr ⟨Message.filled_wellSized fits, rest, ?_⟩
    rw [encodeMessage_filled]
  · intro m m' sized sized' e
    have same : encodeMessage m ++ [] = encodeMessage m' ++ [] := by rw [e]
    exact sized.encode_inj sized' same
  · intro b b' out out' m e same
    obtain ⟨sized, -⟩ := decodeMessage_iff.mp e
    refine decodeMessage_iff.mpr ⟨sized, b'.drop (10 + m.header.payloadLength.toNat), ?_⟩
    rw [reencode b out m e, ← same, List.take_append_drop]
  · intro header payload rest out complete
    exact decodeMessage_payload_iff complete

end MiniModem.Qmi
