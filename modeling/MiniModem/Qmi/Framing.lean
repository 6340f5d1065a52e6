import Mathlib.Logic.Function.Iterate
import MiniModem.Qmi.FrameParser

/-!
# The framing of the parser and that of the decoder

The size of a frame is computed twice: by `FrameParser::next` from bytes 8 and 9 of the buffer, and by
`decodeMessage` from the header it reads. Both are the number in the header, so a frame that `next` cuts
off has a whole header and a whole payload, and is rejected only if the payload is not a sequence of
TLVs (`next_whole`). What `next` does is said for every buffer in `next_framing`.
-/

namespace MiniModem.Qmi
open Lib

/-- A concatenation of complete TLVs. -/
def IsPayload (payload : Bytes) : Prop :=
  ∃ tlvs : List Tlv, (∀ tlv ∈ tlvs, tlv.value.length < 65536) ∧ payload = payloadBytes tlvs

/-- The payload length that `next` computes. -/
def payloadLength (b : Bytes) : ℕ := (ofBytes (b.getD 8 0) (b.getD 9 0)).toNat

/-- The bytes that `next` takes for the payload. -/
def payloadTaken (b : Bytes) : Bytes := (b.drop FrameParser.HeaderSize).take (payloadLength b)

/-- A frame is incomplete until its header is there and its payload. -/
lemma incomplete_iff {b : Bytes} :
    Incomplete b ↔ b.length < 10 ∨ b.length < 10 + payloadLength b := Iff.rfl

/-- No frame is longer than 65545 bytes. -/
lemma Incomplete.length_le {b : Bytes} (part : Incomplete b) : b.length ≤ 65544 := by
  have bound : payloadLength b < 65536 := UInt16.toNat_lt _
  rw [incomplete_iff] at part
  omega

/-- A whole frame in a buffer: a header, and as many bytes as it announces. -/
lemma whole_frame {b : Bytes} (whole : ¬ Incomplete b) :
    ∃ (header : Header) (payload rest : Bytes), b = header.bytes ++ payload ++ rest ∧
      payload.length = header.payloadLength.toNat := by
  obtain ⟨long, whole⟩ := not_or.mp whole
  rcases decodeHeader_cases b {} with ⟨header, rest, rfl⟩ | ⟨short, -⟩
  · have size : frameSize (header.bytes ++ rest) = 10 + header.payloadLength.toNat := by
      simp [frameSize, Header.bytes, FrameParser.HeaderSize]
    rw [size, List.length_append, Header.bytes_length] at whole
    refine ⟨header, rest.take header.payloadLength.toNat, rest.drop header.payloadLength.toNat, ?_, ?_⟩
    · rw [List.append_assoc, List.take_append_drop]
    · rw [List.length_take]
      omega
  · exact absurd short long

/-- The length of the payload is that of the header. -/
lemma payloadLength_whole (header : Header) (payload rest : Bytes) :
    payloadLength (header.bytes ++ payload ++ rest) = header.payloadLength.toNat := by
  simp [payloadLength, Header.bytes]

/-- A complete payload is taken as it is. -/
lemma payloadTaken_whole {header : Header} {payload : Bytes}
    (complete : payload.length = header.payloadLength.toNat) (rest : Bytes) :
    payloadTaken (header.bytes ++ payload ++ rest) = payload := by
  rw [payloadTaken, payloadLength_whole, ← complete, List.append_assoc]
  have behind : (header.bytes ++ (payload ++ rest)).drop FrameParser.HeaderSize = payload ++ rest :=
    List.drop_left' header.bytes_length
  rw [behind, List.take_left]

/-- The decoder reads the header of a whole frame, and finds the payload that the header announces. -/
lemma decodeHeader_whole {b : Bytes} (whole : ¬ Incomplete b) :
    ∃ header : Header,
      decodeHeader ⟨b.take (10 + payloadLength b)⟩ {} = (some ⟨payloadTaken b⟩, header) ∧
        header.payloadLength.toNat = payloadLength b ∧ (payloadTaken b).length = payloadLength b := by
  obtain ⟨header, payload, rest, rfl, complete⟩ := whole_frame whole
  rw [payloadTaken_whole complete, payloadLength_whole]
  refine ⟨header, ?_, rfl, complete⟩
  have frame : (header.bytes ++ payload ++ rest).take (10 + header.payloadLength.toNat) =
      header.bytes ++ payload := by
    rw [← complete]
    exact List.take_left' (by simp)
  rw [frame, decodeHeader_bytes]

/-- A whole frame is taken off the buffer if its payload is a sequence of TLVs; otherwise the buffer is
thrown away. -/
lemma next_whole {header : Header} {payload : Bytes}
    (complete : payload.length = header.payloadLength.toNat) (rest : Bytes) :
    (IsPayload payload ∧ ∃ m, FrameParser.next ⟨header.bytes ++ payload ++ rest⟩ = (some m, ⟨rest⟩) ∧
        encodeMessage m = header.bytes ++ payload) ∨
      (¬ IsPayload payload ∧
        FrameParser.next ⟨header.bytes ++ payload ++ rest⟩ = (none, ⟨[]⟩)) := by
  have frame : IsFrame (header.bytes ++ payload) := by
    refine ⟨?_, ?_⟩
    · simp [FrameParser.HeaderSize]
    · simp [frameSize, Header.bytes, FrameParser.HeaderSize, complete]
      omega
  have accepted : (decodeMessage (header.bytes ++ payload ++ []) {}).1 = true ↔ IsPayload payload :=
    decodeMessage_payload_iff complete
  rw [List.append_nil] at accepted
  rcases d : decodeMessage (header.bytes ++ payload) {} with ⟨_ | _, m⟩
  · refine .inr ⟨fun split => ?_, FrameParser.next_bad ⟨frame, by rw [d]⟩ rest⟩
    have ok := accepted.mpr split
    rw [d] at ok
    cases ok
  · have valid : ValidFrame (header.bytes ++ payload) m := ⟨frame, d⟩
    refine .inl ⟨accepted.mp (by rw [d]), m, FrameParser.next_valid valid rest, ?_⟩
    exact (validFrame_iff.mp valid).2.symm

namespace FrameParser

/-- The parser after `n` calls of `next`. -/
def afterCalls (n : ℕ) (parser : FrameParser) : FrameParser := (fun parser => parser.next.2)^[n] parser

/-- Calls of `next` until it finds nothing. -/
lemma exists_calls (b : Bytes) :
    ∃ n, 10 * n ≤ b.length ∧ (∀ k < n, (afterCalls k ⟨b⟩).next.1.isSome = true) ∧
      (afterCalls n ⟨b⟩).next.1 = none ∧ (afterCalls (n + 1) ⟨b⟩).buffer.length ≤ 65544 := by
  induction b using frameReader.drain_induct with
  | none b rest e =>
    refine ⟨0, by simp, by simp, congrArg Prod.fst e, ?_⟩
    show (next ⟨b⟩).2.buffer.length ≤ 65544
    rcases buffer_cases b with part | ⟨f, m, rest', rfl, valid⟩ | ⟨f, rest', rfl, bad⟩
    · rw [next_incomplete part]
      exact part.length_le
    · rw [reader_valid valid] at e
      cases e
    · rw [next_bad bad]
      simp
  | some b m rest e ih =>
    obtain ⟨n, long, found, ended, bound⟩ := ih
    obtain ⟨f, rfl, valid⟩ := reader_some e
    have first : next ⟨f ++ rest⟩ = (some m, ⟨rest⟩) := next_valid valid rest
    have later : ∀ k, afterCalls (k + 1) ⟨f ++ rest⟩ = afterCalls k ⟨rest⟩ := by
      intro k
      rw [afterCalls, Function.iterate_succ_apply, first]
      rfl
    refine ⟨n + 1, ?_, ?_, by rw [later]; exact ended, by rw [later]; exact bound⟩
    · have header := valid.1.1
      simp only [HeaderSize] at header
      rw [List.length_append]
      omega
    · intro k lt
      cases k with
      | zero =>
        show (next ⟨f ++ rest⟩).1.isSome = true
        rw [first]
        rfl
      | succ k =>
        rw [later]
        exact found k (by omega)

end FrameParser

/-- What `next` does with any buffer. -/
theorem next_framing (b : Bytes) :
    let (found, after) := FrameParser.next ⟨b⟩
    -- a message is found exactly if a whole frame is there whose payload is a sequence of TLVs
    (found.isSome = true ↔ 10 ≤ b.length ∧ 10 + payloadLength b ≤ b.length ∧
        IsPayload (payloadTaken b)) ∧
      (∀ m, found = some m → b = encodeMessage m ++ after.buffer) ∧
      -- the buffer is kept exactly if no whole frame is there, and otherwise thrown away
      (found = none ∧ after.buffer = b ↔ b.length < 10 ∨ b.length < 10 + payloadLength b) ∧
      (found = none → after.buffer = b ∨ after.buffer = []) ∧
      -- a whole frame has a header and the payload that the header announces
      (10 ≤ b.length → 10 + payloadLength b ≤ b.length → ∃ header : Header,
        decodeHeader ⟨b.take (10 + payloadLength b)⟩ {} = (some ⟨payloadTaken b⟩, header) ∧
          header.payloadLength.toNat = payloadLength b ∧
          (payloadTaken b).length = payloadLength b) ∧
      -- the calls of `next` end, and what they leave is bounded
      ∃ n, 10 * n ≤ b.length ∧
        (∀ k < n, (FrameParser.afterCalls k ⟨b⟩).next.1.isSome = true) ∧
        (FrameParser.afterCalls n ⟨b⟩).next.1 = none ∧
        (FrameParser.afterCalls (n + 1) ⟨b⟩).buffer.length ≤ 65544 := by
  have calls := FrameParser.exists_calls b
  have decodes := fun (long : 10 ≤ b.length) (enough : 10 + payloadLength b ≤ b.length) =>
    decodeHeader_whole (b := b) (incomplete_iff.not.mpr (by omega))
  by_cases part : Incomplete b
  · have short := incomplete_iff.mp part
    rw [FrameParser.next_incomplete part]
    refine ⟨?_, ?_, ?_, ?_, decodes, calls⟩
    · apply iff_of_false (by simp)
      intro whole
      omega
    · intro m found
      cases found
    · exact iff_of_true ⟨rfl, rfl⟩ short
    · exact fun _ => .inl rfl
  · have whole := incomplete_iff.not.mp part
    obtain ⟨header, payload, rest, rfl, complete⟩ := whole_frame part
    have taken := payloadTaken_whole complete rest
    rcases next_whole complete rest with ⟨split, m, found, encoded⟩ | ⟨bad, found⟩
    · rw [found]
      refine ⟨?_, ?_, ?_, ?_, decodes, calls⟩
      · rw [taken]
        refine iff_of_true rfl ⟨by omega, by omega, split⟩
      · intro m' e
        cases e
        rw [encoded]
      · refine iff_of_false ?_ whole
        rintro ⟨none, -⟩
        cases none
      · intro none
        cases none
    · rw [found]
      refine ⟨?_, ?_, ?_, ?_, decodes, calls⟩
      · rw [taken]
        apply iff_of_false (by simp)
        exact fun all => bad all.2.2
      · intro m' e
        cases e
      · refine iff_of_false ?_ whole
        rintro ⟨-, e⟩
        have length := congrArg List.length e
        simp [Header.bytes] at length
      · exact fun _ => .inr rfl

end MiniModem.Qmi
