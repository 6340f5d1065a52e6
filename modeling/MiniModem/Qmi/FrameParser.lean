import MiniModem.Lib.Reader
import MiniModem.Qmi.CodecRoundTrip

/-!
# The frame parser

`src/qmi/frame_parser.cpp`: a buffer of received bytes, from which `next` takes one frame at a time. The
size of a frame is ten bytes of header plus the payload length in its bytes 8 and 9.

What `next` can do is said once, for each of the three kinds of buffer: it starts with an incomplete
frame (`next_incomplete`), with a frame that decodes (`next_valid`), or with one that does not
(`next_bad`), and there is no other kind (`buffer_cases`).
-/

namespace MiniModem.Qmi
open Lib Lib.Reader

/-- Bytes received and not yet parsed. -/
structure FrameParser where
  buffer : Bytes := []
  deriving DecidableEq, Repr

namespace FrameParser

/-- The bytes of a header. -/
def HeaderSize : ℕ := 10

/-- Append the bytes to the buffer. -/
def push (parser : FrameParser) (data : Bytes) : FrameParser :=
  ⟨parser.buffer ++ data⟩

/-- The next message, if a whole frame is buffered. -/
def next (parser : FrameParser) : Option Message × FrameParser :=
  if parser.buffer.length < HeaderSize then (none, parser)
  else
    let payloadLength := ofBytes (parser.buffer.getD 8 0) (parser.buffer.getD 9 0)
    let frameSize := HeaderSize + payloadLength.toNat
    if parser.buffer.length < frameSize then (none, parser)
    else
      match decodeMessage (parser.buffer.take frameSize) {} with
      -- a frame that does not decode: everything buffered goes
      | (false, _) => (none, ⟨[]⟩)
      | (true, message) => (some message, ⟨parser.buffer.drop frameSize⟩)

end FrameParser

/-- The size of the frame whose header is at the start of `b`. -/
def frameSize (b : Bytes) : ℕ := FrameParser.HeaderSize + (ofBytes (b.getD 8 0) (b.getD 9 0)).toNat

/-- A byte string that is one whole frame: a header, and as many bytes as the header announces. -/
def IsFrame (f : Bytes) : Prop := FrameParser.HeaderSize ≤ f.length ∧ f.length = frameSize f

/-- Not even one frame is there yet. -/
def Incomplete (b : Bytes) : Prop := b.length < FrameParser.HeaderSize ∨ b.length < frameSize b

/-- A frame that decodes to `m`. -/
def ValidFrame (f : Bytes) (m : Message) : Prop := IsFrame f ∧ decodeMessage f {} = (true, m)

/-- A frame whose payload is not a sequence of TLVs. -/
def BadFrame (f : Bytes) : Prop := IsFrame f ∧ (decodeMessage f {}).1 = false

instance (f : Bytes) : Decidable (IsFrame f) := inferInstanceAs (Decidable (_ ∧ _))
instance (b : Bytes) : Decidable (Incomplete b) := inferInstanceAs (Decidable (_ ∨ _))
instance (f : Bytes) (m : Message) : Decidable (ValidFrame f m) := inferInstanceAs (Decidable (_ ∧ _))
instance (f : Bytes) : Decidable (BadFrame f) := inferInstanceAs (Decidable (_ ∧ _))

/-- The size of a frame is in its header. -/
lemma frameSize_append {b : Bytes} (header : FrameParser.HeaderSize ≤ b.length) (more : Bytes) :
    frameSize (b ++ more) = frameSize b := by
  have h8 : 8 < b.length := by simp [FrameParser.HeaderSize] at header; omega
  have h9 : 9 < b.length := by simp [FrameParser.HeaderSize] at header; omega
  rw [frameSize, frameSize, List.getD_append _ _ _ _ h8, List.getD_append _ _ _ _ h9]

/-- A beginning with the whole header tells the size. -/
lemma frameSize_take {b : Bytes} {n : ℕ} (header : FrameParser.HeaderSize ≤ n) :
    frameSize (b.take n) = frameSize b := by
  simp only [FrameParser.HeaderSize] at header
  simp only [frameSize, List.getD_eq_getElem?_getD]
  rw [List.getElem?_take_of_lt (by omega), List.getElem?_take_of_lt (by omega)]

/-- The frames of valid messages are their encodings. -/
lemma validFrame_iff {f : Bytes} {m : Message} :
    ValidFrame f m ↔ m.WellSized ∧ f = encodeMessage m := by
  have size : ∀ m : Message, m.WellSized → frameSize (encodeMessage m) = (encodeMessage m).length := by
    intro m sized
    rw [encodeMessage_length, ← sized.1, sized.encode_eq]
    simp [frameSize, Header.bytes, FrameParser.HeaderSize]
  refine ⟨?_, ?_⟩
  · intro valid
    obtain ⟨⟨header, whole⟩, d⟩ := valid
    obtain ⟨sized, rest, rfl⟩ := decodeMessage_iff.mp d
    refine ⟨sized, ?_⟩
    rw [frameSize_append (by simp [FrameParser.HeaderSize]), size m sized] at whole
    simp at whole
    simp [whole]
  · intro both
    obtain ⟨sized, rfl⟩ := both
    refine ⟨⟨by simp [FrameParser.HeaderSize], (size m sized).symm⟩, ?_⟩
    exact decodeMessage_iff.mpr ⟨sized, [], by simp⟩

/-- Every buffer starts with an incomplete frame, a valid one or a bad one. -/
lemma buffer_cases (b : Bytes) :
    Incomplete b ∨ (∃ f m rest, b = f ++ rest ∧ ValidFrame f m) ∨
      ∃ f rest, b = f ++ rest ∧ BadFrame f := by
  by_cases part : Incomplete b
  · exact .inl part
  · right
    obtain ⟨header, whole⟩ := not_or.mp part
    have frame : IsFrame (b.take (frameSize b)) := by
      have le : FrameParser.HeaderSize ≤ frameSize b := Nat.le_add_right _ _
      refine ⟨by simp; omega, ?_⟩
      rw [frameSize_take le]
      simp
      omega
    have split : b = b.take (frameSize b) ++ b.drop (frameSize b) := (List.take_append_drop _ _).symm
    rcases d : decodeMessage (b.take (frameSize b)) {} with ⟨_ | _, m⟩
    · exact .inr ⟨_, _, split, frame, by rw [d]⟩
    · exact .inl ⟨_, m, _, split, frame, d⟩

namespace FrameParser

/-- As long as the frame is incomplete there is no message, and the buffer stays. -/
lemma next_incomplete {b : Bytes} (part : Incomplete b) : next ⟨b⟩ = (none, ⟨b⟩) := by
  rw [next]
  rcases part with short | short
  · rw [if_pos short]
  · split
    · rfl
    · exact if_pos short

/-- A whole frame at the start of the buffer is decoded on its own. -/
lemma next_frame {f : Bytes} (frame : IsFrame f) (rest : Bytes) :
    next ⟨f ++ rest⟩ =
      match decodeMessage f {} with
      | (false, _) => (none, ⟨[]⟩)
      | (true, m) => (some m, ⟨rest⟩) := by
  obtain ⟨header, whole⟩ := frame
  have size : HeaderSize + (ofBytes ((f ++ rest).getD 8 0) ((f ++ rest).getD 9 0)).toNat = f.length :=
    (frameSize_append header rest).trans whole.symm
  rw [next]
  simp only [size]
  rw [if_neg (by simp; omega), if_neg (by simp), List.take_left, List.drop_left]

/-- A valid frame is taken out of the buffer and delivered. -/
lemma next_valid {f : Bytes} {m : Message} (valid : ValidFrame f m) (rest : Bytes) :
    next ⟨f ++ rest⟩ = (some m, ⟨rest⟩) := by
  rw [next_frame valid.1, valid.2]

/-- A malformed frame is taken for no message, and the whole buffer goes with it. -/
lemma next_bad {f : Bytes} (bad : BadFrame f) (rest : Bytes) : next ⟨f ++ rest⟩ = (none, ⟨[]⟩) := by
  rw [next_frame bad.1]
  rcases d : decodeMessage f {} with ⟨_ | _, m⟩
  · rfl
  · have no := bad.2
    rw [d] at no
    cases no

/-- A message comes from a valid frame at the start of the buffer. -/
lemma next_some {b b' : Bytes} {m : Message} (e : next ⟨b⟩ = (some m, ⟨b'⟩)) :
    ∃ f, b = f ++ b' ∧ ValidFrame f m := by
  rcases buffer_cases b with part | ⟨f, m', rest, rfl, valid⟩ | ⟨f, rest, rfl, bad⟩
  · rw [next_incomplete part] at e
    cases e
  · rw [next_valid valid] at e
    cases e
    exact ⟨f, rfl, valid⟩
  · rw [next_bad bad] at e
    cases e

end FrameParser

/-- The parser as an incremental reader of messages. -/
def frameReader : Reader UInt8 Message where
  next b := ((FrameParser.next ⟨b⟩).1, (FrameParser.next ⟨b⟩).2.buffer)
  shrinks := by
    intro b m rest e
    simp only [Prod.mk.injEq] at e
    have taken : FrameParser.next ⟨b⟩ = (some m, ⟨rest⟩) := Prod.ext e.1 (by rw [← e.2])
    obtain ⟨f, rfl, valid⟩ := FrameParser.next_some taken
    have header := valid.1.1
    simp only [FrameParser.HeaderSize] at header
    simp
    omega

namespace FrameParser

/-- Any interleaving of `push` and `next`: the messages returned, and the parser afterwards. -/
def run : FrameParser → List (Call UInt8) → List Message × FrameParser := runWith push next

/-- The parser is the reader of messages. -/
lemma run_eq (parser : FrameParser) (calls : List (Call UInt8)) :
    frameReader.run parser.buffer calls = ((parser.run calls).1, (parser.run calls).2.buffer) :=
  Implemented.run ⟨fun _ _ => rfl, fun _ => rfl⟩ parser calls

/-- The `while` loop around `next`: the messages it sees, and the parser afterwards. -/
def drain (parser : FrameParser) : List Message × FrameParser :=
  ((frameReader.drain parser.buffer).1, ⟨(frameReader.drain parser.buffer).2⟩)

end FrameParser

/-- The reader waits for the rest of a frame. -/
lemma reader_incomplete {b : Bytes} (part : Incomplete b) : frameReader.next b = (none, b) := by
  simp [frameReader, FrameParser.next_incomplete part]

/-- The reader delivers the first frame if it is valid. -/
lemma reader_valid {f : Bytes} {m : Message} (valid : ValidFrame f m) (rest : Bytes) :
    frameReader.next (f ++ rest) = (some m, rest) := by
  simp [frameReader, FrameParser.next_valid valid]

/-- The reader throws everything away at a malformed frame. -/
lemma reader_bad {f : Bytes} (bad : BadFrame f) (rest : Bytes) :
    frameReader.next (f ++ rest) = (none, []) := by
  simp [frameReader, FrameParser.next_bad bad]

/-- A message that the reader delivers is that of a valid frame at the front. -/
lemma reader_some {b b' : Bytes} {m : Message} (e : frameReader.next b = (some m, b')) :
    ∃ f, b = f ++ b' ∧ ValidFrame f m := by
  simp only [frameReader, Prod.mk.injEq] at e
  exact FrameParser.next_some (Prod.ext e.1 (by rw [← e.2]))

end MiniModem.Qmi
