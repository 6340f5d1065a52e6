import MiniModem.Qmi.Reassembly

/-!
# Fragmentation and malformed frames

When a frame does not decode, `next` throws away the whole buffer, the frame and whatever arrived after
it. What goes therefore depends on how much had arrived, and the parser may go on in the middle of a
frame. This module says exactly on which streams that shows.

`FirstError` finds the first malformed frame of a stream by framing from its start. Up to it the parser
is aligned, after it the parser may start anywhere (`Aligned`, `Astray`): all positions at which it ever
takes a message are of one of the two kinds (`feedAt_tracked`). The messages do not depend on the
fragmentation exactly when no frame lies anywhere after the first malformed one
(`fragmentation_independent_iff`), and no message starts inside a frame exactly when none of the frames
lying there does (`noPhantom_iff`).
-/

namespace MiniModem.Qmi
open Lib Lib.Reader

/-- The messages delivered when each chunk is pushed and the parser drained after it. -/
def delivered (chunks : List Bytes) : List Message := (frameReader.feed [] chunks).1

/-- The same messages with the stream offset each was taken from. -/
def deliveredAt (chunks : List Bytes) : List (ℕ × Message) := (frameReader.feedAt 0 [] chunks).1

/-- The offsets are a record; the messages are the same. -/
lemma delivered_eq_map (chunks : List Bytes) : delivered chunks = (deliveredAt chunks).map Prod.snd :=
  (congrArg Prod.fst (frameReader.feed_located 0 [] chunks)).symm

/-- Each is a whole frame that decodes. -/
def AllValid (frames : List Bytes) : Prop := ∀ f ∈ frames, ValidFrame f (decoded f)

/-- Framing `s` from its start finds valid frames, then a malformed one, then `t`. -/
structure FirstError (s : Bytes) (frames : List Bytes) (bad t : Bytes) : Prop where
  split : s = frames.flatten ++ (bad ++ t)
  valid : AllValid frames
  malformed : BadFrame bad

/-- A frame that decodes lies somewhere in `t`. -/
def FrameInside (t : Bytes) : Prop := ∃ before f m after, t = before ++ (f ++ after) ∧ ValidFrame f m

/-- The offsets at which the frames of a stream start, by framing from its start; malformed frames
count. -/
def Boundary (s : Bytes) (n : ℕ) : Prop :=
  ∃ frames rest, (∀ f ∈ frames, IsFrame f) ∧ s = List.flatten frames ++ rest ∧
    n = (List.flatten frames).length

/-- Valid frames and valid frames are valid frames. -/
lemma allValid_append {frames more : List Bytes} (valid : AllValid frames) (valid' : AllValid more) :
    AllValid (frames ++ more) := by
  intro g mem
  rcases List.mem_append.mp mem with mem | mem
  · exact valid g mem
  · exact valid' g mem

/-- One valid frame. -/
lemma ValidFrame.allValid {f : Bytes} {m : Message} (valid : ValidFrame f m) : AllValid [f] := by
  intro g mem
  rw [List.mem_singleton] at mem
  subst mem
  rwa [valid.decoded_eq]

/-- Valid frames in front are delivered first. -/
lemma drain_valid {frames : List Bytes} (valid : AllValid frames) (b : Bytes) :
    frameReader.drain (frames.flatten ++ b) =
      (frames.map decoded ++ (frameReader.drain b).1, (frameReader.drain b).2) := by
  induction frames with
  | nil => simp
  | cons f frames ih =>
    rw [List.flatten_cons, List.append_assoc,
      frameReader.drain_some (reader_valid (valid f (by simp)) _),
      ih fun g mem => valid g (List.mem_cons_of_mem _ mem)]
    rfl

/-- Draining stops at the first malformed frame, and nothing is left. -/
lemma FirstError.drain_eq {s frames bad t} (err : FirstError s frames bad t) :
    frameReader.drain s = (frames.map decoded, []) := by
  rw [err.split, drain_valid err.valid, frameReader.drain_none (reader_bad err.malformed t)]
  simp

/-- Framing a buffer ends in an incomplete frame or at a malformed one. -/
lemma framing_cases (b : Bytes) :
    (∃ frames last, b = List.flatten frames ++ last ∧ AllValid frames ∧ Incomplete last) ∨
      ∃ frames bad t, FirstError b frames bad t := by
  induction b using frameReader.drain_induct with
  | none b rest e =>
    rcases buffer_cases b with part | ⟨f, m, rest, rfl, valid⟩ | ⟨f, rest, rfl, bad⟩
    · exact .inl ⟨[], b, rfl, by simp [AllValid], part⟩
    · rw [reader_valid valid] at e
      cases e
    · exact .inr ⟨[], f, rest, rfl, by simp [AllValid], bad⟩
  | some b m rest e ih =>
    obtain ⟨f, rfl, valid⟩ := reader_some e
    have head := valid.allValid
    rcases ih with ⟨frames, last, rfl, more, part⟩ | ⟨frames, bad, t, err⟩
    · exact .inl ⟨[f] ++ frames, last, by simp, allValid_append head more, part⟩
    · exact .inr ⟨[f] ++ frames, bad, t, by simp [err.split], allValid_append head err.valid,
        err.malformed⟩

/-! ### Messages -/

/-- Where no frame lies, nothing is ever delivered. -/
lemma feed_quiet {b : Bytes} {chunks : List Bytes} (quiet : ¬ FrameInside (b ++ chunks.flatten)) :
    (frameReader.feed b chunks).1 = [] := by
  induction chunks generalizing b with
  | nil => rfl
  | cons chunk chunks ih =>
    rw [List.flatten_cons, ← List.append_assoc] at quiet
    have step : ∃ last, frameReader.drain (b ++ chunk) = ([], last) ∧
        ∃ gone, b ++ chunk = gone ++ last := by
      rcases buffer_cases (b ++ chunk) with part | ⟨f, m, rest, eq, valid⟩ | ⟨f, rest, eq, bad⟩
      · exact ⟨_, frameReader.drain_none (reader_incomplete part), [], rfl⟩
      · refine absurd ⟨[], f, m, rest ++ chunks.flatten, ?_, valid⟩ quiet
        simp [eq]
      · rw [eq]
        exact ⟨[], frameReader.drain_none (reader_bad bad rest), _, (List.append_nil _).symm⟩
    obtain ⟨last, e, gone, eq⟩ := step
    rw [feed_cons, e, List.nil_append]
    apply ih
    rintro ⟨before, f, m, after, eq', valid⟩
    exact quiet ⟨gone ++ before, f, m, after, by rw [eq, List.append_assoc, eq']; simp, valid⟩

/-- Draining takes all of the valid frames that a stream starts with, or all that are there so far. -/
lemma drain_frames {frames : List Bytes} {b more rest : Bytes} (valid : AllValid frames)
    (stream : b ++ more = frames.flatten ++ rest) :
    frames.map decoded <+: (frameReader.drain b).1 ∨
      ∃ j b', frameReader.drain b = ((frames.take j).map decoded, b') ∧ Incomplete b' ∧
        b' ++ more = (frames.drop j).flatten ++ rest := by
  induction frames generalizing b with
  | nil => exact .inl List.nil_prefix
  | cons f frames ih =>
    have head := valid f (by simp)
    rw [List.flatten_cons, List.append_assoc] at stream
    rcases stream_head head.1 stream with ⟨part, -⟩ | ⟨b', rfl, e⟩
    · refine .inr ⟨0, b, frameReader.drain_none (reader_incomplete part), part, ?_⟩
      rw [stream, List.drop_zero, List.flatten_cons, List.append_assoc]
    · rw [frameReader.drain_some (reader_valid head b')]
      rcases ih (fun g mem => valid g (List.mem_cons_of_mem _ mem)) e.symm with all | ⟨j, b'', out, part, e'⟩
      · exact .inl (List.cons_prefix_cons.mpr ⟨rfl, all⟩)
      · exact .inr ⟨j + 1, b'', by rw [out]; rfl, part, e'⟩

/-- The valid frames that a stream starts with are delivered first, in any chunks and whatever follows. -/
lemma feed_frames {chunks frames : List Bytes} {b rest : Bytes} (part : Incomplete b) (valid : AllValid frames)
    (stream : b ++ chunks.flatten = frames.flatten ++ rest) :
    frames.map decoded <+: (frameReader.feed b chunks).1 := by
  induction chunks generalizing b frames with
  | nil =>
    cases frames with
    | nil => exact List.nil_prefix
    | cons f frames =>
      -- a whole frame would not be left in the buffer
      have head := valid f (by simp)
      rw [List.flatten_nil, List.append_nil, List.flatten_cons, List.append_assoc] at stream
      have taken := reader_valid head (frames.flatten ++ rest)
      rw [← stream, reader_incomplete part] at taken
      cases taken
  | cons chunk chunks ih =>
    rw [List.flatten_cons, ← List.append_assoc] at stream
    rw [feed_cons]
    rcases drain_frames valid stream with all | ⟨j, b', out, part', stream'⟩
    · exact all.trans (List.prefix_append _ _)
    · have later := ih part' (fun g mem => valid g (List.mem_of_mem_drop mem)) stream'
      have split : frames.map decoded = (frames.take j).map decoded ++ (frames.drop j).map decoded := by
        rw [← List.map_append, List.take_append_drop]
      rw [split, out]
      exact (List.prefix_append_right_inj _).mpr later

/-- From an aligned buffer, if no frame lies after the first malformed one, the messages are those of
the stream received at once. -/
lemma feed_eq_drain {b : Bytes} {chunks : List Bytes} (part : Incomplete b)
    (quiet : ∀ frames bad t, FirstError (b ++ chunks.flatten) frames bad t → ¬ FrameInside t) :
    (frameReader.feed b chunks).1 = (frameReader.drain (b ++ chunks.flatten)).1 := by
  induction chunks generalizing b with
  | nil => rw [List.flatten_nil, List.append_nil, frameReader.drain_none (reader_incomplete part)]; rfl
  | cons chunk chunks ih =>
    rw [List.flatten_cons, ← List.append_assoc] at quiet ⊢
    rw [feed_cons]
    rcases framing_cases (b ++ chunk) with ⟨frames, last, eq, valid, part'⟩ | ⟨frames, bad, t, err⟩
    · have drained : frameReader.drain (b ++ chunk) = (frames.map decoded, last) := by
        rw [eq, drain_valid valid, frameReader.drain_none (reader_incomplete part')]
        simp
      have rest := ih part' (by
        intro more bad t err
        refine quiet (frames ++ more) bad t ⟨?_, allValid_append valid err.valid, err.malformed⟩
        rw [eq, List.append_assoc, err.split, List.flatten_append, List.append_assoc])
      rw [drained, rest, eq, List.append_assoc, drain_valid valid]
    · have whole : FirstError (b ++ chunk ++ chunks.flatten) frames bad (t ++ chunks.flatten) :=
        ⟨by rw [err.split]; simp, err.valid, err.malformed⟩
      -- the rest of the chunk is gone, and nothing after it is delivered
      have silent : (frameReader.feed [] chunks).1 = [] := by
        apply feed_quiet
        rintro ⟨before, f, m, after, eq, valid⟩
        refine quiet _ _ _ whole ⟨t ++ before, f, m, after, ?_, valid⟩
        rw [List.nil_append] at eq
        rw [eq, List.append_assoc]
      rw [err.drain_eq, whole.drain_eq, silent, List.append_nil]

/-- Draining valid frames leaves nothing. -/
lemma AllValid.drain_eq {frames : List Bytes} (valid : AllValid frames) :
    frameReader.drain frames.flatten = (frames.map decoded, []) := by
  have none : frameReader.drain [] = ([], []) :=
    frameReader.drain_none (reader_incomplete (.inl (by decide)))
  have drained := drain_valid valid []
  rwa [none, List.append_nil, List.append_nil] at drained

/-- Valid frames are the encodings of what they decode to. -/
lemma AllValid.encode_decoded {frames : List Bytes} (valid : AllValid frames) :
    (frames.map decoded).map encodeMessage = frames := by
  have each : ∀ f ∈ frames, encodeMessage (decoded f) = f :=
    fun f mem => (validFrame_iff.mp (valid f mem)).2.symm
  rw [List.map_map]
  exact (List.map_congr_left each).trans (List.map_id frames)

/-- Framing a stream of valid frames meets no malformed one. -/
lemma AllValid.no_error {frames : List Bytes} (valid : AllValid frames) {frames' bad t} :
    ¬ FirstError frames.flatten frames' bad t := by
  intro err
  have drained := valid.drain_eq
  rw [err.drain_eq, Prod.mk.injEq] at drained
  have same := congrArg (List.map encodeMessage) drained.1
  rw [err.valid.encode_decoded, valid.encode_decoded] at same
  have split := err.split
  rw [same] at split
  have long := err.malformed.1.1
  simp only [List.self_eq_append_right, List.append_eq_nil_iff] at split
  rw [split.1] at long
  exact absurd long (by decide)

/-- Valid frames are delivered, however they are cut. -/
lemma AllValid.delivered_eq {frames chunks : List Bytes} (valid : AllValid frames)
    (cut : chunks.flatten = frames.flatten) : delivered chunks = frames.map decoded := by
  have quiet : ∀ frames' bad t, FirstError ([] ++ chunks.flatten) frames' bad t → ¬ FrameInside t := by
    rw [List.nil_append, cut]
    exact fun _ _ _ err => absurd err valid.no_error
  rw [delivered, feed_eq_drain (.inl (by decide)) quiet, List.nil_append, cut, valid.drain_eq]

/-- A malformed frame, and a frame somewhere after it, received in two chunks. -/
lemma FirstError.feed_two {s frames bad t before f m after} (err : FirstError s frames bad t)
    (valid : ValidFrame f m) :
    ∃ more, delivered [frames.flatten ++ (bad ++ before), f ++ after] =
      frames.map decoded ++ m :: more := by
  have first : FirstError (frames.flatten ++ (bad ++ before)) frames bad before :=
    ⟨rfl, err.valid, err.malformed⟩
  refine ⟨(frameReader.drain after).1, ?_⟩
  rw [delivered, feed_cons, List.nil_append, first.drain_eq, feed_single, List.nil_append,
    frameReader.drain_some (reader_valid valid after)]

/-- The stream is cut before the valid frame that follows the malformed one. -/
lemma FirstError.chunking_two {s frames bad t before f m after} (err : FirstError s frames bad t)
    (inside : t = before ++ (f ++ after)) (valid : ValidFrame f m) :
    Chunking s [frames.flatten ++ (bad ++ before), f ++ after] := by
  have long := valid.1.1
  have long' := err.malformed.1.1
  simp only [FrameParser.HeaderSize] at long long'
  refine ⟨by simp [err.split, inside], ?_⟩
  intro mem
  rcases List.mem_cons.mp mem with e | mem
  · have := congrArg List.length e
    simp at this
    omega
  · have := congrArg List.length (List.mem_singleton.mp mem)
    simp at this
    omega

/-- What a session is asked does not depend on the fragmentation exactly when no frame lies after the
first malformed frame of the stream. -/
theorem fragmentation_independent_iff (s : Bytes) :
    (∀ chunks chunks', Chunking s chunks → Chunking s chunks' →
      delivered chunks = delivered chunks') ↔
    ∀ frames bad t, FirstError s frames bad t → ¬ FrameInside t := by
  refine ⟨?_, ?_⟩
  · intro same frames bad t err lies
    obtain ⟨before, f, m, after, inside, valid⟩ := lies
    obtain ⟨more, e⟩ : ∃ more, delivered [frames.flatten ++ (bad ++ before), f ++ after] =
        frames.map decoded ++ m :: more := err.feed_two valid
    have nonempty : s ≠ [] := by
      have long := err.malformed.1.1
      rw [err.split]
      intro e
      simp only [List.append_eq_nil_iff] at e
      simp [e.2.1, FrameParser.HeaderSize] at long
    have once := same [s] _ ⟨by simp, by simpa using nonempty.symm⟩ (err.chunking_two inside valid)
    rw [e, delivered, feed_single, List.nil_append, err.drain_eq] at once
    simpa using congrArg List.length once
  · intro quiet chunks chunks' cut cut'
    obtain ⟨rfl, -⟩ := cut
    obtain ⟨e, -⟩ := cut'
    have start : Incomplete [] := .inl (by simp [FrameParser.HeaderSize])
    rw [delivered, delivered, feed_eq_drain start quiet,
      feed_eq_drain start (by rw [List.nil_append, e]; exact quiet), List.nil_append, e]
    rfl

/-- A frame that announces one byte of payload, too short for a TLV. -/
def malformedFrame : Bytes := [1, 1, 0, 0, 1, 0, 1, 0, 1, 0, 0]

/-- A `GetSignal` request. -/
def signalRequest : Bytes := [1, 1, 42, 0, 1, 0, 1, 0, 0, 0]

/-- Received together with a malformed frame before it a request is lost, received after it the request
is answered. -/
theorem fragmentation_matters :
    Chunking (malformedFrame ++ signalRequest) [malformedFrame ++ signalRequest] ∧
      Chunking (malformedFrame ++ signalRequest) [malformedFrame, signalRequest] ∧
      delivered [malformedFrame ++ signalRequest] ≠ delivered [malformedFrame, signalRequest] := by
  decide

/-! ### Positions -/

/-- The bytes used up are frames that were delivered. -/
def Aligned (gone : Bytes) : Prop := ∃ frames, gone = List.flatten frames ∧ AllValid frames

/-- The bytes used up end somewhere after a malformed frame. -/
def Astray (gone : Bytes) : Prop := ∃ frames bad t, FirstError gone frames bad t

/-- A message taken from the stream at a position the parser may be in. -/
def TakenFrom (s : Bytes) (item : ℕ × Message) : Prop :=
  ∃ gone f after, s = gone ++ (f ++ after) ∧ ValidFrame f item.2 ∧ item.1 = gone.length ∧
    (Aligned gone ∨ Astray gone)

/-- Going astray is for good. -/
lemma Astray.append {gone : Bytes} (astray : Astray gone) (more : Bytes) : Astray (gone ++ more) := by
  obtain ⟨frames, bad, t, err⟩ := astray
  exact ⟨frames, bad, t ++ more, by simp [err.split], err.valid, err.malformed⟩

/-- What has been taken from a stream is taken from any longer one. -/
lemma TakenFrom.append {s : Bytes} {item : ℕ × Message} (taken : TakenFrom s item) (more : Bytes) :
    TakenFrom (s ++ more) item := by
  obtain ⟨gone, f, after, rfl, valid, pos, track⟩ := taken
  exact ⟨gone, f, after ++ more, by simp, valid, pos, track⟩

/-- Taking a valid frame keeps the parser aligned, or astray. -/
lemma track_valid {gone f : Bytes} {m : Message} (track : Aligned gone ∨ Astray gone)
    (valid : ValidFrame f m) : Aligned (gone ++ f) ∨ Astray (gone ++ f) := by
  rcases track with ⟨frames, rfl, all⟩ | astray
  · exact .inl ⟨frames ++ [f], by simp, allValid_append all valid.allValid⟩
  · exact .inr (astray.append f)

/-- Throwing the buffer away at a malformed frame leads astray. -/
lemma track_bad {gone f : Bytes} (track : Aligned gone ∨ Astray gone) (bad : BadFrame f)
    (after : Bytes) : Astray (gone ++ (f ++ after)) := by
  rcases track with ⟨frames, rfl, all⟩ | astray
  · exact ⟨frames, f, after, rfl, all, bad⟩
  · exact astray.append _

/-- Draining takes messages from tracked positions only, and stops at one. -/
lemma drain_tracked {gone b : Bytes} (track : Aligned gone ∨ Astray gone) :
    ∃ gone', gone' ++ ((frameReader.located (gone ++ b).length).drain b).2 = gone ++ b ∧
      (Aligned gone' ∨ Astray gone') ∧
      ∀ item ∈ ((frameReader.located (gone ++ b).length).drain b).1, TakenFrom (gone ++ b) item := by
  induction b using frameReader.drain_induct generalizing gone with
  | none b rest e =>
    have e' : (frameReader.located (gone ++ b).length).next b = (none, rest) := by
      simp [located, e]
    rw [drain_none _ e']
    rcases buffer_cases b with part | ⟨f, m, rest', rfl, valid⟩ | ⟨f, rest', rfl, bad⟩
    · rw [reader_incomplete part] at e
      cases e
      exact ⟨gone, rfl, track, by simp⟩
    · rw [reader_valid valid] at e
      cases e
    · rw [reader_bad bad] at e
      cases e
      exact ⟨gone ++ (f ++ rest'), by simp, .inr (track_bad track bad rest'), by simp⟩
  | some b m rest e ih =>
    obtain ⟨f, rfl, valid⟩ := reader_some e
    have e' : (frameReader.located (gone ++ (f ++ rest)).length).next (f ++ rest) =
        (some (gone.length, m), rest) := by
      simp [located, e]
    rw [drain_some _ e']
    obtain ⟨gone', split, track', taken⟩ := ih (track_valid track valid)
    rw [List.append_assoc] at split taken
    refine ⟨gone', split, track', ?_⟩
    intro item mem
    rcases List.mem_cons.mp mem with rfl | mem
    · exact ⟨gone, f, rest, rfl, valid, rfl, track⟩
    · exact taken item mem

/-- In every run all messages are taken from tracked positions. -/
lemma feedAt_tracked {gone b : Bytes} (chunks : List Bytes) (track : Aligned gone ∨ Astray gone) :
    ∀ item ∈ (frameReader.feedAt (gone ++ b).length b chunks).1,
      TakenFrom (gone ++ b ++ chunks.flatten) item := by
  induction chunks generalizing gone b with
  | nil => simp [feedAt]
  | cons chunk chunks ih =>
    have total : (gone ++ b).length + chunk.length = (gone ++ (b ++ chunk)).length := by
      simp
      omega
    obtain ⟨gone', split, track', taken⟩ := drain_tracked (b := b ++ chunk) track
    intro item mem
    rw [feedAt_cons, total, List.mem_append] at mem
    generalize (located _ _).drain (b ++ chunk) = drained at split taken mem
    have regroup : gone ++ b ++ (chunk :: chunks).flatten = gone ++ (b ++ chunk) ++ chunks.flatten := by
      simp
    rw [regroup]
    rcases mem with mem | mem
    · exact (taken item mem).append _
    · rw [← split] at mem ⊢
      exact ih track' item mem

/-- Two frames at the start of one stream are the same. -/
lemma frame_unique {f g a b : Bytes} (frame : IsFrame f) (frame' : IsFrame g) (e : f ++ a = g ++ b) :
    f = g ∧ a = b := by
  apply List.append_inj e
  rw [frame.2, frame'.2, ← frameSize_append frame.1 a, e, frameSize_append frame'.1]

/-- A boundary moves with a frame before it. -/
lemma Boundary.cons {f s : Bytes} {n : ℕ} (frame : IsFrame f) (boundary : Boundary s n) :
    Boundary (f ++ s) (f.length + n) := by
  obtain ⟨frames, rest, all, rfl, rfl⟩ := boundary
  refine ⟨f :: frames, rest, ?_, by simp, by simp⟩
  intro g mem
  rcases List.mem_cons.mp mem with rfl | mem
  · exact frame
  · exact all g mem

/-- It moves back when the frame is taken away. -/
lemma Boundary.of_cons {f s : Bytes} {n : ℕ} (frame : IsFrame f)
    (boundary : Boundary (f ++ s) (f.length + n)) : Boundary s n := by
  obtain ⟨frames, rest, all, e, len⟩ := boundary
  have header := frame.1
  simp only [FrameParser.HeaderSize] at header
  cases frames with
  | nil =>
    rw [List.flatten_nil, List.length_nil] at len
    omega
  | cons g frames =>
    rw [List.flatten_cons, List.append_assoc] at e
    obtain ⟨rfl, rfl⟩ := frame_unique frame (all g (by simp)) e
    refine ⟨frames, rest, fun h mem => all h (List.mem_cons_of_mem _ mem), rfl, ?_⟩
    rw [List.flatten_cons, List.length_append] at len
    omega

/-- No boundary lies inside a frame. -/
lemma not_boundary_inside {f s : Bytes} {n : ℕ} (frame : IsFrame f) (pos : 0 < n)
    (lt : n < f.length) : ¬ Boundary (f ++ s) n := by
  intro boundary
  obtain ⟨frames, rest, all, e, len⟩ := boundary
  cases frames with
  | nil =>
    rw [List.flatten_nil, List.length_nil] at len
    omega
  | cons g frames =>
    rw [List.flatten_cons, List.append_assoc] at e
    obtain ⟨rfl, -⟩ := frame_unique frame (all g (by simp)) e
    rw [List.flatten_cons, List.length_append] at len
    omega

/-- Boundaries after some whole frames are those of the rest of the stream. -/
lemma boundary_frames_iff {frames : List Bytes} (all : ∀ f ∈ frames, IsFrame f) (s : Bytes) (n : ℕ) :
    Boundary (frames.flatten ++ s) (frames.flatten.length + n) ↔ Boundary s n := by
  induction frames with
  | nil => simp
  | cons f frames ih =>
    have head := all f (by simp)
    rw [← ih fun g mem => all g (List.mem_cons_of_mem _ mem), List.flatten_cons, List.append_assoc,
      List.length_append, add_assoc]
    exact ⟨.of_cons head, .cons head⟩

/-- Framing goes on after the malformed frame as if nothing had happened. -/
lemma FirstError.boundary_iff {s frames bad t n} (err : FirstError s frames bad t) :
    Boundary s ((frames.flatten ++ bad).length + n) ↔ Boundary t n := by
  have all : ∀ f ∈ frames ++ [bad], IsFrame f := by
    intro f mem
    rcases List.mem_append.mp mem with mem | mem
    · exact (err.valid f mem).1
    · rw [List.mem_singleton.mp mem]
      exact err.malformed.1
  have := boundary_frames_iff all t n
  rw [err.split]
  simpa using this

/-- Every message is the decoding of a whole frame that starts at a boundary of the stream. -/
def NoPhantom (s : Bytes) (chunks : List Bytes) : Prop :=
  ∀ item ∈ deliveredAt chunks, Boundary s item.1 ∧
    ∃ f after, s.drop item.1 = f ++ after ∧ ValidFrame f item.2

/-- A malformed frame, and a frame somewhere after it, received in two chunks: the second chunk finds the
buffer empty. -/
lemma FirstError.deliveredAt_two {s frames bad t before f m after} (err : FirstError s frames bad t)
    (valid : ValidFrame f m) :
    ((frames.flatten ++ (bad ++ before)).length, m) ∈
      deliveredAt [frames.flatten ++ (bad ++ before), f ++ after] := by
  have first : FirstError (frames.flatten ++ (bad ++ before)) frames bad before :=
    ⟨rfl, err.valid, err.malformed⟩
  have empty : ((frameReader.located (0 + (frames.flatten ++ (bad ++ before)).length)).drain
      ([] ++ (frames.flatten ++ (bad ++ before)))).2 = [] := by
    rw [congrArg Prod.snd (frameReader.drain_located _ _), List.nil_append, first.drain_eq]
  have e : (frameReader.located (0 + (frames.flatten ++ (bad ++ before)).length +
      (f ++ after).length)).next ([] ++ (f ++ after)) =
      (some ((frames.flatten ++ (bad ++ before)).length, m), after) := by
    simp only [located, List.nil_append, reader_valid valid, Option.map_some]
    congr 3
    omega
  rw [deliveredAt, feedAt_cons, feedAt_cons, empty, drain_some _ e]
  simp

/-- A tracked position is a boundary, if every frame after the first malformed one starts at one. -/
lemma TakenFrom.boundary {s : Bytes} {item : ℕ × Message} (taken : TakenFrom s item)
    (aligned : ∀ frames bad t, FirstError s frames bad t → ∀ before f m after,
      t = before ++ (f ++ after) → ValidFrame f m → Boundary t before.length) :
    Boundary s item.1 ∧ ∃ f after, s.drop item.1 = f ++ after ∧ ValidFrame f item.2 := by
  obtain ⟨gone, f, after, rfl, valid, e, track⟩ := taken
  rw [e]
  refine ⟨?_, f, after, List.drop_left, valid⟩
  rcases track with ⟨frames, rfl, all⟩ | ⟨frames, bad, t, err⟩
  · exact ⟨frames, f ++ after, fun g mem => (all g mem).1, rfl, rfl⟩
  · have err' : FirstError (gone ++ (f ++ after)) frames bad (t ++ (f ++ after)) :=
      ⟨by rw [err.split]; simp, err.valid, err.malformed⟩
    have boundary := aligned _ _ _ err' t f _ after rfl valid
    have len : gone.length = (frames.flatten ++ bad).length + t.length := by
      rw [err.split]
      simp
      omega
    rw [len]
    exact err'.boundary_iff.mpr boundary

/-- No message starts inside a frame, in whatever chunks the stream is received, exactly when every
frame that lies after the first malformed frame starts at a boundary. -/
theorem noPhantom_iff (s : Bytes) :
    (∀ chunks, Chunking s chunks → NoPhantom s chunks) ↔
    ∀ frames bad t, FirstError s frames bad t →
      ∀ before f m after, t = before ++ (f ++ after) → ValidFrame f m → Boundary t before.length := by
  refine ⟨?_, ?_⟩
  · intro none frames bad t err before f m after inside valid
    have cut := err.chunking_two inside valid
    have boundary := (none _ cut _ (err.deliveredAt_two valid)).1
    rw [← List.append_assoc, List.length_append] at boundary
    exact err.boundary_iff.mp boundary
  · intro aligned chunks cut item mem
    obtain ⟨rfl, -⟩ := cut
    have start : Aligned [] := ⟨[], rfl, by simp [AllValid]⟩
    have tracked : ∀ item ∈ deliveredAt chunks, TakenFrom ([] ++ [] ++ chunks.flatten) item :=
      @feedAt_tracked [] [] chunks (.inl start)
    exact (tracked _ mem).boundary aligned

/-- The start of a frame, up to the ten bytes of value of its only TLV. -/
def frameStart : Bytes := [1, 1, 7, 0, 1, 0, 1, 0, 14, 0, 1, 0, 10, 0]

/-- A malformed frame, then a frame whose TLV holds the bytes of a request. Cut in front of these, the
request is delivered from offset 25, inside the second frame. -/
theorem phantom_request :
    Chunking (malformedFrame ++ (frameStart ++ signalRequest))
        [malformedFrame ++ frameStart, signalRequest] ∧
      ¬ NoPhantom (malformedFrame ++ (frameStart ++ signalRequest))
        [malformedFrame ++ frameStart, signalRequest] := by
  refine ⟨by decide, ?_⟩
  intro none
  have boundary := (none (25, decoded signalRequest) (by decide)).1
  have inside : Boundary (frameStart ++ signalRequest ++ []) 14 :=
    Boundary.of_cons (f := malformedFrame) (n := 14) (by decide) boundary
  exact not_boundary_inside (by decide) (by decide) (by decide) inside

end MiniModem.Qmi
