import MiniModem.Qmi.FrameParser

/-!
# Reassembly of well-formed streams

A stream that is a concatenation of valid frames may reach the parser in any chunks, and `next` may be
called at any time. The buffer always starts at a frame boundary: either the next frame of the stream
is incomplete in it, and then `next` leaves it alone, or it is whole, and then `next` takes exactly that
frame (`stream_head`). Induction over the calls carries this from one call to every run.
-/

namespace MiniModem.Qmi
open Lib Lib.Reader

/-- What the decoder makes of a frame. -/
def decoded (f : Bytes) : Message := (decodeMessage f {}).2

/-- The message of a valid frame is the one that it decodes to. -/
lemma ValidFrame.decoded_eq {f : Bytes} {m : Message} (valid : ValidFrame f m) : decoded f = m := by
  rw [decoded, valid.2]

/-- The size a frame announces is at least its header. -/
lemma isFrame_of_size {f : Bytes} (whole : f.length = frameSize f) : IsFrame f :=
  ⟨by rw [whole, frameSize]; omega, whole⟩

/-- A frame that decodes is valid. -/
lemma validFrame_decoded {f : Bytes}
    (ok : f.length = frameSize f ∧ (decodeMessage f {}).1 = true) : ValidFrame f (decoded f) :=
  ⟨isFrame_of_size ok.1, Prod.ext ok.2 rfl⟩

/-- Of a stream that starts with a frame, a part either lacks some of the frame or has all of it. -/
lemma stream_head {f tail b rest : Bytes} (frame : IsFrame f) (stream : b ++ rest = f ++ tail) :
    (Incomplete b ∧ b.length < f.length) ∨ ∃ b', b = f ++ b' ∧ tail = b' ++ rest := by
  rcases List.append_eq_append_iff.mp stream with ⟨c, rfl, rfl⟩ | ⟨c, rfl, rfl⟩
  · rcases c with _ | ⟨c0, c⟩
    · exact .inr ⟨[], by simp⟩
    · refine .inl ⟨?_, by simp⟩
      by_cases header : FrameParser.HeaderSize ≤ b.length
      · right
        rw [← frameSize_append header (c0 :: c), ← frame.2]
        simp
      · exact .inl (by omega)
  · exact .inr ⟨c, rfl, rfl⟩

/-- One call of `next` on a stream of valid frames. -/
lemma next_stream {frames : List Bytes} {b rest : Bytes}
    (valid : ∀ f ∈ frames, ValidFrame f (decoded f)) (stream : b ++ rest = frames.flatten) :
    (frameReader.next b = (none, b) ∧ ∀ f ∈ frames.head?, b.length < f.length) ∨
      ∃ f tail b', frames = f :: tail ∧ b = f ++ b' ∧ b' ++ rest = tail.flatten ∧
        frameReader.next b = (some (decoded f), b') := by
  rcases frames with _ | ⟨f, tail⟩
  · obtain ⟨rfl, rfl⟩ := List.append_eq_nil_iff.mp stream
    exact .inl ⟨reader_incomplete (.inl (by simp [FrameParser.HeaderSize])), by simp⟩
  · have head := valid f (by simp)
    rw [List.flatten_cons] at stream
    rcases stream_head head.1 stream with ⟨part, short⟩ | ⟨b', rfl, e⟩
    · exact .inl ⟨reader_incomplete part, by simpa using short⟩
    · exact .inr ⟨f, tail, b', rfl, rfl, e.symm, reader_valid head b'⟩

/-- After any calls the messages are those of the first frames, and the buffer is the rest. -/
lemma run_stream {frames : List Bytes} {b rest : Bytes} (calls : List (Call UInt8))
    (valid : ∀ f ∈ frames, ValidFrame f (decoded f))
    (stream : b ++ pushed calls ++ rest = frames.flatten) :
    ∃ j ≤ frames.length,
      (frameReader.run b calls).1 = (frames.take j).map decoded ∧
        (frames.take j).flatten ++ (frameReader.run b calls).2 = b ++ pushed calls := by
  induction calls generalizing frames b with
  | nil => exact ⟨0, by simp, by simp [run], by simp [run, pushed]⟩
  | cons call calls ih =>
    cases call with
    | push chunk =>
      simp only [pushed, run_push] at stream ⊢
      rw [← List.append_assoc] at stream ⊢
      exact ih valid stream
    | next =>
      simp only [pushed] at stream ⊢
      rw [List.append_assoc] at stream
      rcases next_stream valid stream with ⟨e, -⟩ | ⟨f, tail, b', rfl, rfl, stream', e⟩
      · rw [run_next _ e]
        exact ih valid (by rw [List.append_assoc, stream])
      · obtain ⟨j, le, out, buf⟩ :=
          ih (fun f mem => valid f (List.mem_cons_of_mem _ mem)) (by rw [List.append_assoc, stream'])
        refine ⟨j + 1, by simpa using le, ?_, ?_⟩
        · simp [run_next _ e, out]
        · simp [run_next _ e, buf]

/-- Draining takes all frames that are complete, and leaves what does not reach to the next. -/
lemma drain_stream {frames : List Bytes} {b rest : Bytes}
    (valid : ∀ f ∈ frames, ValidFrame f (decoded f)) (stream : b ++ rest = frames.flatten) :
    ∃ j ≤ frames.length,
      (frameReader.drain b).1 = (frames.take j).map decoded ∧
        (frames.take j).flatten ++ (frameReader.drain b).2 = b ∧
          ∀ f ∈ (frames.drop j).head?, (frameReader.drain b).2.length < f.length := by
  induction frames generalizing b with
  | nil =>
    rcases next_stream valid stream with ⟨e, short⟩ | ⟨f, tail, b', eq, -⟩
    · exact ⟨0, le_rfl, by simp [frameReader.drain_none e], by simp [frameReader.drain_none e], by simp⟩
    · cases eq
  | cons f frames ih =>
    rcases next_stream valid stream with ⟨e, short⟩ | ⟨f', tail, b', eq, rfl, stream', e⟩
    · refine ⟨0, Nat.zero_le _, ?_, ?_, ?_⟩
      · simp [frameReader.drain_none e]
      · simp [frameReader.drain_none e]
      · rw [frameReader.drain_none e]
        exact short
    · cases eq
      obtain ⟨j, le, out, buf, short⟩ := ih (fun f mem => valid f (List.mem_cons_of_mem _ mem)) stream'
      refine ⟨j + 1, by simpa using le, ?_, ?_, ?_⟩
      · simp [frameReader.drain_some e, out]
      · simp [frameReader.drain_some e, buf]
      · rw [frameReader.drain_some e]
        exact short

/-- The frames up to the `j`-th are the complete ones when the buffer after them does not reach to the
end of the next. -/
lemma complete_iff {frames : List Bytes} {j : ℕ} {stream buffer : Bytes} (le : j ≤ frames.length)
    (split : (frames.take j).flatten ++ buffer = stream)
    (short : ∀ f ∈ (frames.drop j).head?, buffer.length < f.length) {k : ℕ} (le' : k ≤ frames.length) :
    k ≤ j ↔ (frames.take k).flatten.length ≤ stream.length := by
  have length : stream.length = (frames.take j).flatten.length + buffer.length := by
    rw [← split, List.length_append]
  refine ⟨?_, ?_⟩
  · intro kj
    have sub : (frames.take j).take k = frames.take k := by
      rw [List.take_take, min_eq_left kj]
    have := congrArg List.length (congrArg List.flatten (List.take_append_drop k (frames.take j)))
    rw [sub, List.flatten_append, List.length_append] at this
    omega
  · intro fits
    by_contra jk
    obtain ⟨n, rfl⟩ : ∃ n, k = j + (n + 1) := ⟨k - j - 1, by omega⟩
    rw [List.take_add, List.flatten_append, List.length_append] at fits
    rcases e : frames.drop j with _ | ⟨f, tail⟩
    · have := congrArg List.length e
      simp at this
      omega
    · have long := short f (by simp [e])
      rw [e, List.take_succ_cons, List.flatten_cons, List.length_append] at fits
      omega

/-- Reassembly: for a stream of frames that decode, pushed in any chunks and polled at any times, the
messages so far are those of the first `j` frames and the buffer is the rest of what was pushed; after
draining, the first `j` frames are the complete ones; and when all was pushed, all are delivered. -/
theorem frameParser_reassembles (frames : List Bytes)
    (whole : ∀ f ∈ frames, f.length = frameSize f ∧ (decodeMessage f {}).1 = true)
    (calls : List (Call UInt8)) (rest : Bytes) (stream : pushed calls ++ rest = frames.flatten) :
    let out := (FrameParser.run {} calls).1
    let buffer := (FrameParser.run {} calls).2.buffer
    let drained := frameReader.drain buffer
    (∃ j ≤ frames.length, out = (frames.take j).map decoded ∧
      (frames.take j).flatten ++ buffer = pushed calls) ∧
    (∃ j ≤ frames.length, out ++ drained.1 = (frames.take j).map decoded ∧
      (frames.take j).flatten ++ drained.2 = pushed calls ∧
      ∀ k ≤ frames.length, k ≤ j ↔ (frames.take k).flatten.length ≤ (pushed calls).length) ∧
    (rest = [] → out ++ drained.1 = frames.map decoded ∧ drained.2 = []) := by
  intro out buffer drained
  have valid : ∀ f ∈ frames, ValidFrame f (decoded f) := fun f mem => validFrame_decoded (whole f mem)
  obtain ⟨i, le, outEq, bufEq⟩ := run_stream (b := []) calls valid stream
  have same : frameReader.run [] calls = (out, buffer) := FrameParser.run_eq {} calls
  rw [same] at outEq bufEq
  rw [List.nil_append] at bufEq
  -- what is left of the stream after the messages so far
  have restEq : buffer ++ rest = (frames.drop i).flatten := by
    have e := stream
    rw [← bufEq, ← List.take_append_drop i frames, List.flatten_append, List.append_assoc,
      List.take_append_drop] at e
    exact List.append_cancel_left e
  obtain ⟨n, len, outEq', bufEq', short⟩ :=
    drain_stream (fun f mem => valid f (List.mem_of_mem_drop mem)) restEq
  have total : i + n ≤ frames.length := by
    rw [List.length_drop] at len
    omega
  have messages : out ++ drained.1 = (frames.take (i + n)).map decoded := by
    rw [List.take_add, List.map_append, ← outEq, ← outEq']
  have bytes : (frames.take (i + n)).flatten ++ drained.2 = pushed calls := by
    rw [List.take_add, List.flatten_append, List.append_assoc, bufEq', bufEq]
  have next : ∀ f ∈ (frames.drop (i + n)).head?, drained.2.length < f.length := by
    rw [← List.drop_drop]
    exact short
  refine ⟨⟨i, le, outEq, bufEq⟩, ⟨i + n, total, messages, bytes, ?_⟩, ?_⟩
  · intro k lek
    exact complete_iff total bytes next lek
  · rintro rfl
    rw [List.append_nil] at stream
    have all : frames.length ≤ i + n := by
      rw [complete_iff total bytes next le_rfl, List.take_length, stream]
    have e : i + n = frames.length := by omega
    rw [e, List.take_length] at messages bytes
    refine ⟨messages, ?_⟩
    rw [stream] at bytes
    simpa using bytes

/-- A request cut inside its length field. -/
theorem frameParser_reassembles_split :
    (FrameParser.run {} [.push [1, 1, 42, 0, 1, 0, 1, 0, 0], .next, .push [0]]).1 ++
        (frameReader.drain
          (FrameParser.run {} [.push [1, 1, 42, 0, 1, 0, 1, 0, 0], .next, .push [0]]).2.buffer).1 =
      [decoded [1, 1, 42, 0, 1, 0, 1, 0, 0, 0]] :=
  ((frameParser_reassembles [[1, 1, 42, 0, 1, 0, 1, 0, 0, 0]] (by decide)
    [.push [1, 1, 42, 0, 1, 0, 1, 0, 0], .next, .push [0]] [] (by decide)).2.2 rfl).1

end MiniModem.Qmi
