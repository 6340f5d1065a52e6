import MiniModem.Qmi.CodecRoundTrip

/-!
# The length fields of an encoded message

`encodeMessage` narrows two sizes to 16 bits, that of each value and that of the payload, and checks
neither. Its output is honest (`HonestLengths`) when the length fields a peer reads from it are the
numbers of bytes that follow. This is the case exactly when the payload has at most 65535 bytes:
beyond that the header already announces fewer bytes than are sent.
-/

namespace MiniModem.Qmi
open Lib

/-- The little-endian word at an offset of a byte string. -/
def wordAt (b : Bytes) (offset : ℕ) : ℕ := (ofBytes (b.getD offset 0) (b.getD (offset + 1) 0)).toNat

/-- The length fields of the encoding of `m` tell the truth: the header's about the bytes after it,
and that of each TLV, which starts after the header and the TLVs before it, about its value. -/
structure HonestLengths (m : Message) : Prop where
  frame : (encodeMessage m).length = 10 + wordAt (encodeMessage m) 8
  tlv : ∀ before tlv after, m.tlvs = before ++ tlv :: after →
    wordAt (encodeMessage m) (10 + payloadSize before + 2) = tlv.value.length

/-- A word of the second part. -/
lemma wordAt_append (a b : Bytes) (k : ℕ) : wordAt (a ++ b) (a.length + k) = wordAt b k := by
  rw [wordAt, wordAt, add_assoc]
  rw [List.getD_append_right _ _ _ _ (by omega), List.getD_append_right _ _ _ _ (by omega)]
  simp

/-- What the header of an encoding announces: the payload size modulo 65536. -/
lemma wordAt_header (m : Message) : wordAt (encodeMessage m) 8 = payloadSize m.tlvs % 65536 := by
  simp [wordAt, encodeMessage_eq, Header.bytes]

/-- What a TLV of an encoding announces: the size of its value modulo 65536. -/
lemma wordAt_tlv {m : Message} {before after : List Tlv} {tlv : Tlv}
    (e : m.tlvs = before ++ tlv :: after) :
    wordAt (encodeMessage m) (10 + payloadSize before + 2) = tlv.value.length % 65536 := by
  have start := encodeMessage_eq m
  generalize ({ m.header with payloadLength := _ } : Header) = header at start
  have split : encodeMessage m =
      (header.bytes ++ payloadBytes before) ++ (tlv.bytes ++ payloadBytes after) := by
    rw [start, e, payloadBytes, List.flatMap_append, List.append_assoc]
    rfl
  have length : (header.bytes ++ payloadBytes before).length = 10 + payloadSize before := by simp
  rw [split, ← length, wordAt_append]
  simp [wordAt, Tlv.bytes]

/-- Everything fits, so no narrowing changes a length. -/
lemma honestLengths_of_le {m : Message} (fits : payloadSize m.tlvs ≤ 65535) : HonestLengths m := by
  refine ⟨?_, ?_⟩
  · rw [wordAt_header, encodeMessage_length]
    omega
  · intro before tlv after e
    have small : tlv.value.length + 4 ≤ payloadSize m.tlvs := value_length_lt (by simp [e])
    rw [wordAt_tlv e]
    omega

/-- A payload that does not fit makes the header announce too little. -/
lemma not_honestLengths_of_lt {m : Message} (big : 65535 < payloadSize m.tlvs) :
    ¬ HonestLengths m := by
  intro honest
  have frame := honest.frame
  rw [wordAt_header, encodeMessage_length] at frame
  omega

/-- The encoder tells the truth about the lengths exactly when the payload has at most 65535 bytes. -/
theorem honestLengths_iff (m : Message) :
    HonestLengths m ↔ (m.tlvs.map fun tlv => 4 + tlv.value.length).sum ≤ 65535 := by
  refine ⟨?_, ?_⟩
  · intro honest
    by_contra big
    exact not_honestLengths_of_lt (not_le.mp big) honest
  · intro fits
    exact honestLengths_of_le fits

/-- A value of 65536 bytes or more has a length that is too small. -/
lemma not_honestLengths_value {value : Bytes} (long : 65536 ≤ value.length) :
    ¬ HonestLengths ⟨{}, [⟨1, value⟩]⟩ := by
  apply not_honestLengths_of_lt
  show 65535 < payloadSize [⟨1, value⟩]
  rw [payloadSize_cons]
  show 65535 < 4 + value.length + _
  omega

/-- One value of 65536 bytes: the TLV announces an empty value, and the header a payload of four
bytes where 65540 follow. -/
theorem not_honestLengths_long : ¬ HonestLengths ⟨{}, [⟨1, List.replicate 65536 0⟩]⟩ :=
  not_honestLengths_value (le_of_eq List.length_replicate.symm)

end MiniModem.Qmi
